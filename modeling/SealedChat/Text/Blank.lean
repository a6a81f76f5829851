/-!
# Blank characters

The characters with the Unicode property `White_Space`, and texts without the blanks around them.
-/

namespace SealedChat

namespace Blank

/-- The code points of the blank characters, as closed ranges. -/
def ranges : List (Nat × Nat) :=
  [(0x09, 0x0D), (0x20, 0x20), (0x85, 0x85), (0xA0, 0xA0), (0x1680, 0x1680), (0x2000, 0x200A),
    (0x2028, 0x2029), (0x202F, 0x202F), (0x205F, 0x205F), (0x3000, 0x3000)]

end Blank

def isBlank (c : Char) : Bool := Blank.ranges.any fun r => r.1 ≤ c.toNat && c.toNat ≤ r.2

namespace Blank

/-- A text without the blanks in front. -/
def trimStart (cs : List Char) : List Char := cs.dropWhile isBlank

/-- A text without the blanks at its end. -/
def trimEnd (cs : List Char) : List Char := (trimStart cs.reverse).reverse

def trim (cs : List Char) : List Char := trimEnd (trimStart cs)

theorem mem_trimStart {c : Char} {cs : List Char} (h : c ∈ cs) (hc : ¬isBlank c) :
    c ∈ trimStart cs := by
  induction cs with
  | nil => cases h
  | cons d cs ih =>
    rw [trimStart, List.dropWhile_cons]
    split
    next hd =>
      rcases List.mem_cons.1 h with rfl | h
      · exact absurd hd hc
      · exact ih h
    next => exact h

/-- Only blanks are taken away. -/
theorem mem_trim {c : Char} {cs : List Char} (h : c ∈ cs) (hc : ¬isBlank c) : c ∈ trim cs :=
  List.mem_reverse.2 (mem_trimStart (List.mem_reverse.2 (mem_trimStart h hc)) hc)

theorem trimStart_of_not_isBlank {cs : List Char} (h : ∀ c ∈ cs, ¬isBlank c) :
    trimStart cs = cs := by
  cases cs with
  | nil => rfl
  | cons c cs => rw [trimStart, List.dropWhile_cons, if_neg (h c (by simp))]

theorem trim_of_not_isBlank {cs : List Char} (h : ∀ c ∈ cs, ¬isBlank c) : trim cs = cs := by
  rw [trim, trimStart_of_not_isBlank h, trimEnd,
    trimStart_of_not_isBlank (by simpa using h), List.reverse_reverse]

end Blank

end SealedChat
