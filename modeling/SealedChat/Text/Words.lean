/-!
# Words

A line is a list of words with one separator between neighbours. Two separators in a row have an
empty word between them, so joining the words gives the line back.
-/

namespace SealedChat.Words

/-- The words between the separators; there is always at least one. -/
def split (sep : Char) : List Char → List (List Char)
  | [] => [[]]
  | c :: r =>
    if c = sep then [] :: split sep r
    else
      match split sep r with
      | w :: ws => (c :: w) :: ws
      | [] => [[c]]

/-- The words in a row with a separator between neighbours. -/
def join (sep : Char) : List (List Char) → List Char
  | [] => []
  | [w] => w
  | w :: v :: ws => w ++ sep :: join sep (v :: ws)

theorem split_ne_nil (sep : Char) (cs : List Char) : split sep cs ≠ [] := by
  cases cs with
  | nil => simp [split]
  | cons c r =>
    simp only [split]
    split
    · simp
    · split <;> simp

theorem join_split (sep : Char) (cs : List Char) : join sep (split sep cs) = cs := by
  induction cs with
  | nil => rfl
  | cons c r ih =>
    simp only [split]
    cases h : split sep r with
    | nil => exact absurd h (split_ne_nil sep r)
    | cons w ws =>
      rw [h] at ih
      split
      next hc => simp [join, ih, hc]
      next hc =>
        cases ws with
        | nil => simpa [join] using ih
        | cons v ws => simpa [join] using ih

/-- No word holds the separator. -/
theorem not_mem_of_mem_split {sep : Char} {cs w : List Char} (h : w ∈ split sep cs) : sep ∉ w := by
  induction cs generalizing w with
  | nil =>
    rw [split, List.mem_singleton] at h
    simp [h]
  | cons c cs ih =>
    rw [split] at h
    by_cases hc : c = sep
    · rw [if_pos hc, List.mem_cons] at h
      rcases h with rfl | h
      · simp
      · exact ih h
    · rw [if_neg hc] at h
      cases hsplit : split sep cs with
      | nil => exact absurd hsplit (split_ne_nil sep cs)
      | cons v vs =>
        rw [hsplit] at h ih
        rcases List.mem_cons.1 h with rfl | h
        · rw [List.mem_cons, not_or]
          exact ⟨Ne.symm hc, ih List.mem_cons_self⟩
        · exact ih (List.mem_cons_of_mem _ h)

theorem split_of_not_mem {sep : Char} {w : List Char} (h : sep ∉ w) : split sep w = [w] := by
  induction w with
  | nil => rfl
  | cons c w ih =>
    rw [List.mem_cons, not_or] at h
    rw [split, if_neg (Ne.symm h.1), ih h.2]

theorem split_append_cons {sep : Char} {w : List Char} (h : sep ∉ w) (r : List Char) :
    split sep (w ++ sep :: r) = w :: split sep r := by
  induction w with
  | nil => simp [split]
  | cons c w ih =>
    rw [List.mem_cons, not_or] at h
    rw [List.cons_append, split, if_neg (Ne.symm h.1), ih h.2]

/-- Words that do not hold the separator come apart as they were joined. -/
theorem split_join {sep : Char} {ws : List (List Char)} (hne : ws ≠ []) (h : ∀ w ∈ ws, sep ∉ w) :
    split sep (join sep ws) = ws := by
  induction ws with
  | nil => exact absurd rfl hne
  | cons w ws ih =>
    cases ws with
    | nil => exact split_of_not_mem (h w (by simp))
    | cons v ws =>
      rw [join, split_append_cons (h w (by simp)),
        ih (by simp) fun u hu => h u (List.mem_cons_of_mem _ hu)]

theorem join_cons {sep : Char} {ws : List (List Char)} (w : List Char) (h : ws ≠ []) :
    join sep (w :: ws) = w ++ sep :: join sep ws := by
  cases ws with
  | nil => exact absurd rfl h
  | cons v ws => rfl

theorem join_cons_ne_nil {sep : Char} {w : List Char} {ws : List (List Char)} (h : w ≠ []) :
    join sep (w :: ws) ≠ [] := by
  cases ws with
  | nil => exact h
  | cons v ws => simp [join]

theorem join_isPrefix {sep : Char} {ws vs : List (List Char)} (h : ws <+: vs) :
    join sep ws <+: join sep vs := by
  induction ws generalizing vs with
  | nil => exact List.nil_prefix
  | cons w ws ih =>
    obtain ⟨rest, rfl⟩ := h
    cases ws with
    | nil =>
      cases rest with
      | nil => exact List.prefix_rfl
      | cons v rest => exact ⟨sep :: join sep (v :: rest), rfl⟩
    | cons u ws =>
      have htail : join sep (u :: ws) <+: join sep (u :: ws ++ rest) := ih ⟨rest, rfl⟩
      exact (List.prefix_append_right_inj w).2 ((List.prefix_cons_inj sep).2 htail)

theorem join_eq_intercalate (sep : Char) (ws : List (List Char)) :
    join sep ws = [sep].intercalate ws := by
  induction ws with
  | nil => rfl
  | cons w ws ih =>
    cases ws with
    | nil => simp [join]
    | cons v ws => simp [join, ih]

/-- The first word of a text. -/
def first (sep : Char) (cs : List Char) : List Char := cs.takeWhile (· ≠ sep)

/-- What follows `head` in a text that starts with it. -/
def after? : (head text : List Char) → Option (List Char)
  | [], s => some s
  | h :: hs, c :: cs => if h = c then after? hs cs else none
  | _ :: _, [] => none

theorem after?_eq_some_iff {head text rest : List Char} :
    after? head text = some rest ↔ text = head ++ rest := by
  induction head generalizing text with
  | nil => simp [after?]
  | cons h hs ih =>
    cases text with
    | nil => simp [after?]
    | cons c cs =>
      by_cases hc : h = c
      · simp [after?, hc, ih]
      · simp [after?, hc, Ne.symm hc]

/-- A text split into the texts between separators. -/
def ofText (sep : Char) (s : String) : List String := (split sep s.toList).map String.ofList

theorem ofText_intercalate {sep : Char} {ws : List String} (hne : ws ≠ [])
    (h : ∀ w ∈ ws, sep ∉ w.toList) : ofText sep ((String.singleton sep).intercalate ws) = ws := by
  rw [ofText, String.toList_intercalate, String.toList_singleton, ← join_eq_intercalate,
    split_join (by simpa using hne) (by simpa using h), List.map_map]
  simp

theorem intercalate_ofText (sep : Char) (s : String) :
    (String.singleton sep).intercalate (ofText sep s) = s := by
  rw [← String.toList_inj, String.toList_intercalate, String.toList_singleton,
    ← join_eq_intercalate, ofText, List.map_map]
  simp [Function.comp_def, join_split]

end SealedChat.Words
