import Mathlib.Data.List.Basic
import Mathlib.Data.List.Nodup

/-!
# Entries by name

A list of names with values, read as a map: the first entry of a name counts. An entry in front
answers for its own name only, and so does one that is taken away. Names are texts, or whatever else
can be compared.
-/

namespace SealedChat.Entries

variable {κ β : Type} [BEq κ] [LawfulBEq κ] {entries : List (κ × β)} {name other : κ} {b : β}

theorem lookup_cons [DecidableEq κ] : ((name, b) :: entries).lookup other =
    if other = name then some b else entries.lookup other := by
  by_cases ho : other = name
  · simp [ho]
  · have hne : (other == name) = false := beq_eq_false_iff_ne.2 ho
    simp [List.lookup_cons, hne, ho]

theorem lookup_filter_ne [DecidableEq κ] (entries : List (κ × β)) (name other : κ) :
    (entries.filter (·.1 ≠ name)).lookup other =
      if other = name then none else entries.lookup other := by
  induction entries with
  | nil => simp
  | cons entry entries ih =>
    obtain ⟨key, b⟩ := entry
    rw [List.filter_cons, lookup_cons]
    by_cases hk : key = name
    · subst hk
      by_cases ho : other = key
      · simpa [ho] using ih
      · simpa [ho] using ih
    · by_cases ho : other = key
      · subst ho
        simp [hk]
      · simpa [hk, ho, lookup_cons] using ih

theorem isSome_lookup_iff : (entries.lookup name).isSome ↔ name ∈ entries.map Prod.fst := by
  induction entries with
  | nil => simp
  | cons entry entries ih =>
    obtain ⟨key, b⟩ := entry
    by_cases hk : name = key
    · simp [hk]
    · simp [List.lookup_cons, beq_eq_false_iff_ne.2 hk, hk, ih]

end SealedChat.Entries
