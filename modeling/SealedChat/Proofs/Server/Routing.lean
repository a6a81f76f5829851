import SealedChat.Proofs.Dispatcher
import SealedChat.Proofs.Text.Blank
import SealedChat.Service.Connection

/-!
# Blanks around a request

A request may stand between blanks. Whether it asks for a logout is asked of the line without them,
and those in front of it do not count for its command either. But a command ends at a space or with
the line, and no other blank ends it: of a line that is one word, the blanks behind the word belong
to its command, up to the first space among them (`clinging`).

Main result: `routing_of_trimmed`. It says which lines go the same way as their trimmed text,
whatever handlers there are. A tab behind a command is enough to miss its handler
(`routing_missed`).
-/

namespace SealedChat.Request

open Dispatcher

variable {σ : Type} {line : String}

/-- A line without the blanks around it. -/
def trimmed (line : String) : String := String.ofList (Blank.trim line.toList)

/-- The blanks at the end of a line that belong to its command. -/
def clinging (line : String) : List Char :=
  if ' ' ∈ Blank.trim line.toList then [] else Words.first ' ' (Blank.tail line.toList)

theorem isLogout_trimmed (line : String) : isLogout (trimmed line) = isLogout line := by
  rw [isLogout, trimmed, String.toList_ofList, Blank.trim_trim, isLogout]

/-! ## The command of a line -/

theorem first_cons (c : Char) (cs : List Char) :
    Words.first ' ' (c :: cs) = if c = ' ' then [] else c :: Words.first ' ' cs := by
  rw [Words.first, List.takeWhile_cons, Words.first]
  by_cases hc : c = ' ' <;> simp [hc]

/-- A first word ends in the first of two texts, or goes on in the second. -/
theorem first_append (as bs : List Char) :
    Words.first ' ' (as ++ bs) =
      Words.first ' ' as ++ if ' ' ∈ as then [] else Words.first ' ' bs := by
  induction as with
  | nil => simp [Words.first]
  | cons c as ih =>
    rw [List.cons_append, first_cons, first_cons, ih]
    by_cases hc : c = ' '
    · simp [hc]
    · simp [hc, Ne.symm hc]

theorem commandOf_trimmed (line : String) :
    commandOf (trimmed line) = String.ofList (Words.first ' ' (Blank.trim line.toList)) := by
  rw [commandOf, trimmed, String.toList_ofList, Blank.trimStart_trim]

/-- **The command of a line** is that of its trimmed text, with the blanks that cling to it. -/
theorem commandOf_eq (line : String) :
    commandOf line = commandOf (trimmed line) ++ String.ofList (clinging line) := by
  rw [commandOf_trimmed, ← String.ofList_append, commandOf, Blank.trimStart_eq, first_append]
  rfl

theorem first_eq_nil_iff {cs : List Char} :
    Words.first ' ' cs = [] ↔ ∀ c, cs.head? = some c → c = ' ' := by
  cases cs with
  | nil => simp [Words.first]
  | cons c cs => simp [first_cons]

/-- Nothing clings to a line with a space in it, or with one in front of its blanks at the end. -/
theorem clinging_eq_nil_iff : clinging line = [] ↔
    ' ' ∈ (trimmed line).toList ∨ ∀ c, (Blank.tail line.toList).head? = some c → c = ' ' := by
  rw [clinging, trimmed, String.toList_ofList]
  by_cases h : ' ' ∈ Blank.trim line.toList
  · simp [h]
  · rw [if_neg h, first_eq_nil_iff]
    simp [h]

/-! ## The handler of a line -/

/-- Commands that go to the same handler, whatever handlers there are, are the same. -/
theorem forall_handler?_eq_iff {command command' : String} :
    (∀ d : Dispatcher σ, d.handler? command = d.handler? command') ↔ command = command' := by
  constructor
  · intro h
    have honly := h (empty.register command fun _ _ _ => .ok "")
    rw [handler?_register, handler?_register, if_pos rfl] at honly
    by_cases hc : command = command'
    · exact hc
    · rw [if_neg hc] at honly
      cases honly
  · intro h d
    rw [h]

/-- **Which blanks around a line do not count.** A line asks for a logout just if its trimmed text
does. Blanks in front of a line do not change its command, and of those behind it the command takes
the ones that cling to it. So a line goes to the handler of its trimmed text, whatever handlers
there are, just if there is a space in the trimmed text, or the blanks behind it begin with one, or
there are none. -/
theorem routing_of_trimmed (σ : Type) (line : String) :
    isLogout line = isLogout (trimmed line) ∧
    commandOf (String.ofList (Blank.trimStart line.toList)) = commandOf line ∧
    commandOf line = commandOf (trimmed line) ++ String.ofList (clinging line) ∧
    ((∀ d : Dispatcher σ, d.handler? (commandOf line) = d.handler? (commandOf (trimmed line))) ↔
      ' ' ∈ (trimmed line).toList ∨ ∀ c, (Blank.tail line.toList).head? = some c → c = ' ') := by
  refine ⟨(isLogout_trimmed line).symm, ?_, commandOf_eq line, ?_⟩
  · rw [commandOf, String.toList_ofList, Blank.trimStart_trimStart, commandOf]
  · rw [forall_handler?_eq_iff, commandOf_eq, ← clinging_eq_nil_iff, ← String.toList_inj,
      String.toList_append, String.toList_ofList]
    simp

/-- The handler of `!whoami` is not asked when a tab stands behind the command. -/
theorem routing_missed : ∃ (d : Dispatcher Unit) (line : String),
    d = empty.register "!whoami" (fun _ identity _ => .ok identity) ∧ line = "!whoami\t" ∧
    trimmed line = "!whoami" ∧ isLogout line = false ∧ isLogout (trimmed line) = false ∧
    (d.handler? (commandOf line)).isSome = false ∧
    (d.handler? (commandOf (trimmed line))).isSome = true ∧
    d.dispatch () "alice" line = .ok unknownRequest ∧
    d.dispatch () "alice" (trimmed line) = .ok "alice" := by
  let handler : Handler Unit := fun _ identity _ => .ok identity
  let d : Dispatcher Unit := empty.register "!whoami" handler
  have hmissed : d.handler? (commandOf "!whoami\t") = none := by
    rw [handler?_register, if_neg (by decide)]
    rfl
  have hfound : d.handler? (commandOf (trimmed "!whoami\t")) = some handler := by
    rw [handler?_register, if_pos (by decide)]
  refine ⟨d, "!whoami\t", rfl, rfl, by decide, by decide, by decide, ?_, ?_, ?_, ?_⟩
  · rw [hmissed]
    rfl
  · rw [hfound]
    rfl
  · rw [dispatch, hmissed]
  · rw [dispatch, hfound]

end SealedChat.Request
