import Mathlib.Data.List.DropRight
import SealedChat.Text.Blank

/-!
# Trimmed texts

A text without the blanks around it has none to lose (`trim_trim`). What a text has lost at its end
is a row of blanks (`tail`): with the blanks in front left out, a text is the trimmed text and its
tail (`trimStart_eq`). The other way round, blanks that are put around a text are lost again
(`trim_append`), so the texts that a text without blanks is left of are those with that text between
blanks (`trimmed_eq_iff`).
-/

namespace SealedChat.Blank

variable {c : Char} {cs front back rest : List Char} {inner text : String}

/-- The blanks at the end of a text, unless it has nothing else. -/
def tail (cs : List Char) : List Char := (trimStart cs).rtakeWhile isBlank

theorem trim_eq (cs : List Char) : trim cs = (trimStart cs).rdropWhile isBlank := rfl

theorem trimStart_eq (cs : List Char) : trimStart cs = trim cs ++ tail cs := by
  rw [trim_eq, tail, List.rdropWhile_append_rtakeWhile]

theorem not_isBlank_of_trimStart (h : trimStart cs = c :: rest) : ¬isBlank c := by
  have hne : cs.dropWhile isBlank ≠ [] := by
    intro hnil
    rw [trimStart, hnil] at h
    cases h
  have hhead : (cs.dropWhile isBlank).head hne = c := by
    simp only [trimStart] at h
    simp [h]
  have hnot := List.head_dropWhile_not isBlank hne
  rw [hhead] at hnot
  simp [hnot]

theorem trimStart_trimStart (cs : List Char) : trimStart (trimStart cs) = trimStart cs :=
  List.dropWhile_idempotent _ _

/-- Nothing blank is in front of a trimmed text. -/
theorem trimStart_trim (cs : List Char) : trimStart (trim cs) = trim cs := by
  cases htrim : trim cs with
  | nil => rfl
  | cons c rest =>
    have hfront : trimStart cs = c :: (rest ++ tail cs) := by
      rw [trimStart_eq, htrim, List.cons_append]
    have hc : ¬isBlank c := not_isBlank_of_trimStart hfront
    rw [trimStart, List.dropWhile_cons, if_neg hc]

/-- **Trimming twice is trimming once.** -/
theorem trim_trim (cs : List Char) : trim (trim cs) = trim cs := by
  rw [trim_eq (trim cs), trimStart_trim, trim_eq cs, List.rdropWhile_idempotent]

/-! ## Blanks around a text -/

theorem trimStart_append (hf : ∀ c ∈ front, isBlank c) (cs : List Char) :
    trimStart (front ++ cs) = trimStart cs :=
  List.dropWhile_append_of_pos hf

theorem trimEnd_append (hb : ∀ c ∈ back, isBlank c) (cs : List Char) :
    trimEnd (cs ++ back) = trimEnd cs := by
  rw [trimEnd, List.reverse_append, trimStart_append (by simpa using hb), trimEnd]

/-- **Blanks that are put around a text are lost again.** -/
theorem trim_append (hf : ∀ c ∈ front, isBlank c) (hb : ∀ c ∈ back, isBlank c) (cs : List Char) :
    trim (front ++ cs ++ back) = trim cs := by
  rw [List.append_assoc, trim, trimStart_append hf, trimStart, List.dropWhile_append]
  split
  next hnil =>
    have hback : back.dropWhile isBlank = [] := List.dropWhile_eq_nil_iff.2 hb
    rw [hback, trim, trimStart, List.isEmpty_iff.1 hnil]
  next => exact trimEnd_append hb _

/-- A text without the blanks around it. -/
def trimmed (text : String) : String := String.ofList (trim text.toList)

/-- The text is the inner one, between any number of blanks. -/
def Pads (inner text : String) : Prop :=
  ∃ front back, (∀ c ∈ front, isBlank c) ∧ (∀ c ∈ back, isBlank c) ∧
    text.toList = front ++ inner.toList ++ back

theorem Pads.refl (text : String) : Pads text text := ⟨[], [], by simp⟩

theorem pads_trimmed (text : String) : Pads (trimmed text) text := by
  refine ⟨text.toList.takeWhile isBlank, tail text.toList, ?_, ?_, ?_⟩
  · exact fun _ => List.mem_takeWhile_imp
  · exact fun _ => List.mem_rtakeWhile_imp
  · rw [trimmed, String.toList_ofList, List.append_assoc, ← trimStart_eq, trimStart,
      List.takeWhile_append_dropWhile]

/-- What is left of a text is a text without blanks just when it is that text, between blanks. -/
theorem trimmed_eq_iff (h : ∀ c ∈ inner.toList, ¬isBlank c) :
    trimmed text = inner ↔ Pads inner text := by
  constructor
  · intro heq
    rw [← heq]
    exact pads_trimmed text
  · intro ⟨front, back, hf, hb, htext⟩
    rw [trimmed, htext, trim_append hf hb, trim_of_not_isBlank h, String.ofList_toList]

end SealedChat.Blank
