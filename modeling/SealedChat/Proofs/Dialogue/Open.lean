import SealedChat.Proofs.Dialogue

/-!
# Dialogues that leave the line open

A dialogue stays open if it closes its line in no course (`Dialogue.StaysOpen`), and an exchange
that closes the line only on failure ends open with a result, or with the line closed as the last
thing that happens (`Exchange.runs_orClose_cases`). What is known of all results is carried along, so
the two need one induction.
-/

namespace SealedChat

variable {α β : Type} {P : α → Prop} {Q : β → Prop}

namespace Dialogue

/-- The line is never closed, and every result is of one kind. -/
def StaysOpen (P : α → Prop) : Dialogue α → Prop
  | done a => P a
  | send _ next => ∀ o, StaysOpen P (next o)
  | receive _ next => ∀ o, StaysOpen P (next o)
  | close _ => False
  | fill _ next => ∀ o, StaysOpen P (next o)

theorem StaysOpen.of_runs {x : Dialogue α} {es : List Event} {a : α} (h : x.StaysOpen P)
    (hr : x.Runs es a) : .closed ∉ es ∧ P a := by
  induction hr with
  | done a => exact ⟨by simp, h⟩
  | close => exact h.elim
  | send o _ ih | receive o _ ih | fill o _ ih => simpa using ih (h o)

theorem StaysOpen.mono {P' : α → Prop} {x : Dialogue α} (h : x.StaysOpen P)
    (hP : ∀ a, P a → P' a) : x.StaysOpen P' := by
  induction x with
  | done a => exact hP a h
  | close => exact h.elim
  | send line next ih => exact fun o => ih o (h o)
  | receive limit next ih => exact fun o => ih o (h o)
  | fill n next ih => exact fun o => ih o (h o)

theorem StaysOpen.bind {x : Dialogue α} {f : α → Dialogue β} (h : x.StaysOpen P)
    (hf : ∀ a, P a → (f a).StaysOpen Q) : (x >>= f).StaysOpen Q := by
  induction x with
  | done a => exact hf a h
  | close => exact h.elim
  | send line next ih => exact fun o => ih o (h o)
  | receive limit next ih => exact fun o => ih o (h o)
  | fill n next ih => exact fun o => ih o (h o)

theorem staysOpen_ofDraw (d : Draw α) : (ofDraw d).StaysOpen fun _ => True := by
  induction d with
  | done a => trivial
  | fill n next ih => exact ih

end Dialogue

namespace Exchange

open Dialogue

/-- The line is never closed, and every result but a failure is of one kind. -/
def StaysOpen (P : α → Prop) (x : Exchange α) : Prop :=
  x.run.StaysOpen fun o => ∀ a, o = .ok a → P a

theorem StaysOpen.bind {x : Exchange α} {f : α → Exchange β} (h : StaysOpen P x)
    (hf : ∀ a, P a → StaysOpen Q (f a)) : StaysOpen Q (x >>= f) := by
  apply Dialogue.StaysOpen.bind h
  intro o ho
  cases o with
  | error e =>
    intro b hb
    cases hb
  | ok a => exact hf a (ho a rfl)

theorem StaysOpen.mono {P' : α → Prop} {x : Exchange α} (h : StaysOpen P x)
    (hP : ∀ a, P a → P' a) : StaysOpen P' x :=
  Dialogue.StaysOpen.mono h fun _ ho a ha => hP a (ho a ha)

theorem staysOpen_pure {a : α} (h : P a) : StaysOpen P (pure a) := by
  intro b hb
  cases hb
  exact h

theorem staysOpen_throw (e : ChatError) : StaysOpen P (throw e) := by
  intro b hb
  cases hb

theorem staysOpen_ofOutcome (o : Outcome α) : StaysOpen (fun a => o = .ok a) (ofOutcome o) :=
  fun _ h => h

theorem staysOpen_ofDraw (d : Draw α) : StaysOpen (fun _ => True) (ofDraw d) := by
  apply Dialogue.StaysOpen.bind (Dialogue.staysOpen_ofDraw d)
  intro a _ b _
  trivial

theorem StaysOpen.adapt {x : Exchange α} (h : StaysOpen P x) (g : ChatError → ChatError) :
    StaysOpen P (ExceptT.adapt g x) := by
  apply Dialogue.StaysOpen.bind h
  intro o ho a ha
  cases o with
  | error e => cases ha
  | ok b =>
    cases ha
    exact ho _ rfl

/-- The line is closed as the last thing that happens, or not at all. -/
theorem runs_orClose_cases {x : Exchange α} {es : List Event} {o : Outcome α}
    (h : StaysOpen P x) (hr : x.orClose.Runs es o) :
    (∃ a, o = .ok a ∧ .closed ∉ es ∧ P a) ∨
      ∃ e es', o = .error e ∧ es = es' ++ [.closed] ∧ .closed ∉ es' := by
  rcases runs_orClose_iff.1 hr with ⟨a, ho, h₁⟩ | ⟨e, es', ho, hes, h₁⟩
  · obtain ⟨hopen, ha⟩ := h.of_runs h₁
    exact .inl ⟨a, ho, hopen, ha a rfl⟩
  · exact .inr ⟨e, es', ho, hes, (h.of_runs h₁).1⟩

end Exchange

end SealedChat
