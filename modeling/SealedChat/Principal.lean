import SealedChat.Error
import SealedChat.Text.Blank
import SealedChat.Text.Escaped
import SealedChat.Text.Utf8

/-!
# Principals

Users and servers are named by short words that are safe as a word of a message and as the name of
a file.
-/

namespace SealedChat.Principal

/-- Control characters end or hide parts of a line. -/
def isControl (c : Char) : Bool := c.toNat < 0x20 || (0x7F ≤ c.toNat && c.toNat < 0xA0)

/-- A character that separates words or parts of a path, or controls the terminal. -/
def isForbidden (c : Char) : Bool := isBlank c || c == '/' || c == '\\' || isControl c

/-- The longest name, in bytes. -/
def maxSize : Nat := 64

/-- A name is not empty, takes at most 64 bytes, does not start with a dot, and holds no forbidden
character. -/
def IsValid (name : String) : Prop :=
  name.toList ≠ [] ∧ Utf8.size name ≤ maxSize ∧ name.toList.head? ≠ some '.' ∧
    name.toList.all (fun c => !isForbidden c)

instance (name : String) : Decidable (IsValid name) := by unfold IsValid; infer_instance

def invalid (name : String) : ChatError :=
  .handshake ("Invalid identity: '" ++ Escaped.ofText name ++ "'")

def check (name : String) : Outcome Unit :=
  if IsValid name then .ok () else .error (invalid name)

theorem IsValid.not_mem {name : String} (h : IsValid name) {c : Char} (hc : isForbidden c) :
    c ∉ name.toList := by
  intro hm
  have hallowed := List.all_eq_true.1 h.2.2.2 c hm
  rw [hc] at hallowed
  cases hallowed

theorem check_eq_ok_iff {name : String} : check name = .ok () ↔ IsValid name := by
  unfold check
  split <;> simp_all

end SealedChat.Principal
