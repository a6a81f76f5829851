import Mathlib.Data.List.Basic

/-!
# Histories

A thing that is called again and again moves from state to state. A history is the list of its
turns, the first first, each a step of one relation (`History`).

What every turn keeps holds at the end of a history, of the turns before it and of the state then
reached (`History.keeps`), and what is known of every turn in a kept set of states is known of every
turn of a history that starts there (`History.forall_turns`). A history is cut at a turn into what
came before it and what comes after it (`History.turn_iff`), so a statement about the end of a
history is one about every moment of it.
-/

namespace SealedChat

/-- The turns that lead from one state to another. -/
inductive History {σ τ : Type} (R : σ → τ → σ → Prop) : σ → List τ → σ → Prop where
  | nil (s : σ) : History R s [] s
  | cons {s m s' : σ} {t : τ} {ts : List τ} (h : R s t m) (rest : History R m ts s') :
      History R s (t :: ts) s'

namespace History

variable {σ τ : Type} {R : σ → τ → σ → Prop} {s s' : σ} {t : τ} {ts ts' : List τ}

theorem nil_iff : History R s [] s' ↔ s' = s := by
  constructor
  · rintro ⟨⟩
    rfl
  · rintro rfl
    exact .nil s'

theorem cons_iff : History R s (t :: ts) s' ↔ ∃ m, R s t m ∧ History R m ts s' := by
  constructor
  · rintro (_ | ⟨h, rest⟩)
    exact ⟨_, h, rest⟩
  · rintro ⟨m, h, rest⟩
    exact .cons h rest

theorem append_iff :
    History R s (ts ++ ts') s' ↔ ∃ m, History R s ts m ∧ History R m ts' s' := by
  induction ts generalizing s with
  | nil => simp [nil_iff]
  | cons t ts ih =>
    simp only [List.cons_append, cons_iff, ih]
    constructor
    · rintro ⟨m, h, m', hm, hm'⟩
      exact ⟨m', ⟨m, h, hm⟩, hm'⟩
    · rintro ⟨m', ⟨m, h, hm⟩, hm'⟩
      exact ⟨m, h, m', hm, hm'⟩

/-- A history is cut at a turn. -/
theorem turn_iff :
    History R s (ts ++ t :: ts') s' ↔
      ∃ m m', History R s ts m ∧ R m t m' ∧ History R m' ts' s' := by
  simp only [append_iff, cons_iff]
  constructor
  · rintro ⟨m, h, m', ht, h'⟩
    exact ⟨m, m', h, ht, h'⟩
  · rintro ⟨m, m', h, ht, h'⟩
    exact ⟨m, h, m', ht, h'⟩

/-- **What every turn keeps** holds at the end, of the turns so far and the state. -/
theorem keeps {P : List τ → σ → Prop} (hP : ∀ past s t s', P past s → R s t s' → P (past ++ [t]) s')
    (h : History R s ts s') {past : List τ} (hs : P past s) : P (past ++ ts) s' := by
  induction h generalizing past with
  | nil => rwa [List.append_nil]
  | @cons s m s' t ts ht _ ih =>
    have := ih (hP past s t m hs ht)
    rwa [List.append_assoc] at this

/-- What is known of every turn in a kept set of states. -/
theorem forall_turns {P : σ → Prop} {Q : τ → Prop} (hP : ∀ s t s', P s → R s t s' → Q t ∧ P s')
    (h : History R s ts s') (hs : P s) : (∀ t ∈ ts, Q t) ∧ P s' := by
  induction h with
  | nil => exact ⟨by simp, hs⟩
  | cons ht _ ih =>
    obtain ⟨hQ, hm⟩ := hP _ _ _ hs ht
    obtain ⟨hall, hs'⟩ := ih hm
    exact ⟨List.forall_mem_cons.2 ⟨hQ, hall⟩, hs'⟩

/-- **A simulation**: what is seen of the states takes the same turns, if it does so one turn at a
time in a kept set of states. -/
theorem simulates {ρ : Type} {Q : ρ → τ → ρ → Prop} {P : σ → Prop} {f : σ → ρ}
    (hP : ∀ s t s', P s → R s t s' → Q (f s) t (f s') ∧ P s') (h : History R s ts s') (hs : P s) :
    History Q (f s) ts (f s') ∧ P s' := by
  induction h with
  | nil s => exact ⟨.nil (f s), hs⟩
  | cons ht _ ih =>
    obtain ⟨hQ, hm⟩ := hP _ _ _ hs ht
    obtain ⟨hrest, hs'⟩ := ih hm
    exact ⟨.cons hQ hrest, hs'⟩

/-- Of the turns after one that leads to a kept set of states, what is known in it is known. -/
theorem forall_after {P : σ → Prop} {Q L : τ → Prop} (hP : ∀ s t s', P s → R s t s' → Q t ∧ P s')
    (hL : ∀ s t s', L t → R s t s' → P s') (h : History R s (ts ++ t :: ts') s') (ht : L t) :
    (∀ u ∈ ts', Q u) ∧ P s' := by
  obtain ⟨m, m', -, hlast, hafter⟩ := turn_iff.1 h
  exact hafter.forall_turns hP (hL m t m' ht hlast)

/-- What is seen of a state stays as it is through turns that change nothing of it. -/
theorem stays {ρ : Type} {f : σ → ρ} {Q : τ → Prop}
    (hR : ∀ s t s', Q t → R s t s' → f s' = f s) (h : History R s ts s') (hQ : ∀ t ∈ ts, Q t) :
    f s' = f s := by
  induction h with
  | nil => rfl
  | cons ht _ ih =>
    obtain ⟨hQt, hQts⟩ := List.forall_mem_cons.1 hQ
    exact (ih hQts).trans (hR _ _ _ hQt ht)

end History

/-- An entry of a list with one more at its end is one of the list, or the one at the end. -/
theorem of_getElem?_snoc {τ : Type} {ts : List τ} {t u : τ} {k : Nat}
    (h : (ts ++ [t])[k]? = some u) : ts[k]? = some u ∨ k = ts.length ∧ t = u := by
  by_cases hk : k < ts.length
  · rw [List.getElem?_append_left hk] at h
    exact .inl h
  · rw [List.getElem?_append_right (Nat.le_of_not_lt hk), List.getElem?_singleton] at h
    split at h
    · exact .inr ⟨by omega, Option.some.inj h⟩
    · cases h

/-- What excludes itself from then on is there once at most. -/
theorem countP_le_one {τ : Type} {p : τ → Bool} {ts : List τ}
    (h : ∀ before t after, ts = before ++ t :: after → p t → ∀ u ∈ after, ¬ p u) :
    ts.countP p ≤ 1 := by
  induction ts with
  | nil => simp
  | cons t ts ih =>
    by_cases ht : p t
    · have hnone : ts.countP p = 0 := List.countP_eq_zero.2 (h [] t ts rfl ht)
      rw [List.countP_cons_of_pos ht]
      omega
    · rw [List.countP_cons_of_neg ht]
      apply ih
      intro before u after hts
      exact h (t :: before) u after (by rw [hts]; rfl)

end SealedChat
