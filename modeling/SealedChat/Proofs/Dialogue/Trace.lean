import Mathlib.Tactic.SplitIfs
import SealedChat.Proofs.Dialogue

/-!
# What several dialogues do

A trace lists what happens in the dialogues of several parties, in the order in which it happens.
Each party sees its own events, which begin a course of its dialogue. What may happen at a point is
said of what has happened before (`Trace.Along`), so what was sent can be read again later, by
anybody and any number of times.
-/

namespace SealedChat

open Dialogue

/-- The events of several parties. -/
abbrev Trace (π : Type) := List (π × Event)

/-! ## Courses that have begun -/

namespace Dialogue

variable {α : Type} {d : Dialogue α} {es : List Event} {a : α}

/-- The dialogue has taken this course so far. -/
def Begins (d : Dialogue α) (es : List Event) : Prop := ∃ rest a, d.Runs (es ++ rest) a

theorem Runs.begins (h : d.Runs es a) : d.Begins es :=
  ⟨[], a, by rwa [List.append_nil]⟩

/-- Before anything has happened, every dialogue has begun. -/
theorem begins_nil (d : Dialogue α) : d.Begins [] := exists_runs d

end Dialogue

namespace Trace

variable {π : Type}

/-! ## The events of one party -/

section

variable [DecidableEq π]

/-- What has happened in the dialogue of a party. -/
def of (p : π) (τ : Trace π) : List Event := (τ.filter fun x => x.1 = p).map Prod.snd

variable {p q : π} {τ τ' : Trace π} {e : Event} {es es' : List Event}

@[simp] theorem of_nil : of p [] = [] := rfl

@[simp] theorem of_append : of p (τ ++ τ') = of p τ ++ of p τ' := by simp [of]

@[simp] theorem of_cons_self : of p ((p, e) :: τ) = e :: of p τ := by simp [of]

theorem of_cons_of_ne (h : q ≠ p) : of p ((q, e) :: τ) = of p τ := by simp [of, h]

theorem mem_of : e ∈ of p τ ↔ (p, e) ∈ τ := by simp [of]

/-- What one party does next. -/
def turn (p : π) (es : List Event) : Trace π := es.map (p, ·)

@[simp] theorem of_turn_self : of p (turn p es) = es := by
  induction es with
  | nil => rfl
  | cons e es ih => rw [turn, List.map_cons, of_cons_self, ← turn, ih]

@[simp] theorem of_turn_of_ne (h : q ≠ p) : of p (turn q es) = [] := by simp [of, turn, h]

/-- An event of a party has its place in the trace. -/
theorem exists_of_of_eq (h : of p τ = es ++ e :: es') :
    ∃ before after, τ = before ++ (p, e) :: after ∧ of p before = es ∧ of p after = es' := by
  induction τ generalizing es with
  | nil => simp at h
  | cons x τ ih =>
    obtain ⟨q, e'⟩ := x
    by_cases hq : q = p
    · subst hq
      rw [of_cons_self] at h
      cases es with
      | nil =>
        obtain ⟨rfl, rfl⟩ := List.cons.inj h
        exact ⟨[], τ, rfl, rfl, rfl⟩
      | cons e'' es =>
        rw [List.cons_append, List.cons.injEq] at h
        obtain ⟨rfl, h⟩ := h
        obtain ⟨before, after, rfl, hb, ha⟩ := ih h
        exact ⟨(q, e') :: before, after, rfl, by rw [of_cons_self, hb], ha⟩
    · rw [of_cons_of_ne hq] at h
      obtain ⟨before, after, rfl, hb, ha⟩ := ih h
      exact ⟨(q, e') :: before, after, rfl, by rw [of_cons_of_ne hq, hb], ha⟩

theorem exists_of_of_eq_cons (h : of p τ = e :: es') :
    ∃ before after, τ = before ++ (p, e) :: after ∧ of p before = [] ∧ of p after = es' :=
  exists_of_of_eq h

end

/-! ## One event after the other -/

/-- Each event was possible after those before it. -/
inductive Along (R : Trace π → π → Event → Prop) : Trace π → Prop
  | nil : Along R []
  | snoc {τ : Trace π} {p : π} {e : Event} : Along R τ → R τ p e → Along R (τ ++ [(p, e)])

variable {R : Trace π → π → Event → Prop} {τ before after : Trace π} {p : π} {e : Event}

theorem Along.possible (h : Along R τ) (hτ : τ = before ++ (p, e) :: after) : R before p e := by
  induction h generalizing after with
  | nil => simp at hτ
  | snoc h hR ih =>
    rcases List.eq_nil_or_concat after with rfl | ⟨after', x, rfl⟩
    · obtain ⟨rfl, he⟩ := List.append_inj' hτ rfl
      cases he
      exact hR
    · rw [List.concat_eq_append, ← List.cons_append, ← List.append_assoc] at hτ
      exact ih (List.append_inj' hτ rfl).1

/-- A turn that is possible to begin is possible, if all that follows is possible at any time. -/
theorem Along.turn {es : List Event} (h : Along R τ) (he : R τ p e)
    (hes : ∀ e' ∈ es, ∀ before, R before p e') : Along R (τ ++ turn p (e :: es)) := by
  have h : Along R (τ ++ Trace.turn p [e]) := h.snoc he
  induction es generalizing τ e with
  | nil => exact h
  | cons e' es ih =>
    obtain ⟨he', hes⟩ := List.forall_mem_cons.1 hes
    have h' := ih h (he' _) hes (h.snoc (he' _))
    rwa [List.append_assoc] at h'

/-- Some party has sent the line. -/
def Sent (τ : Trace π) (line : Bytes) : Prop := ∃ p, (p, Event.sent line (.ok ())) ∈ τ

theorem Sent.append {line : Bytes} (h : Sent τ line) (τ' : Trace π) : Sent (τ ++ τ') line := by
  obtain ⟨p, h⟩ := h
  exact ⟨p, List.mem_append_left _ h⟩

/-! ## Random bytes -/

/-- Some party has drawn the block. -/
def Drawn (τ : Trace π) (b : Block 32) : Prop := ∃ p, (p, Event.filled 32 (some b)) ∈ τ

theorem drawn_of_mem_of [DecidableEq π] {b : Block 32} (h : .filled 32 (some b) ∈ of p τ) :
    τ.Drawn b :=
  ⟨p, mem_of.1 h⟩

/-- No block of 32 bytes is drawn twice. -/
def Fresh (τ : Trace π) : Prop :=
  τ.Pairwise fun x y => ∀ b, y.2 = .filled 32 (some b) → x.2 ≠ .filled 32 (some b)

theorem Fresh.not_again {p q : π} {b : Block 32} {before mid after : Trace π} :
    ¬(before ++ (p, .filled 32 (some b)) :: (mid ++ (q, .filled 32 (some b)) :: after)).Fresh := by
  intro h
  have hpair := (List.pairwise_cons.1 (List.pairwise_append.1 h).2.1).1
  exact hpair (q, .filled 32 (some b)) (by simp) b rfl rfl

/-- Who has drawn a block, and when, is settled by the block. -/
theorem Fresh.unique [DecidableEq π] (h : τ.Fresh) {p q : π} {b : Block 32}
    {es es' fs fs' : List Event} (hp : of p τ = es ++ .filled 32 (some b) :: es')
    (hq : of q τ = fs ++ .filled 32 (some b) :: fs') : p = q ∧ es = fs := by
  obtain ⟨before, after, rfl, rfl, -⟩ := exists_of_of_eq hp
  obtain ⟨before', after', hτ, rfl, -⟩ := exists_of_of_eq hq
  -- one place is the other, or one of them comes later
  rcases List.append_eq_append_iff.1 hτ with ⟨mid, rfl, hmid⟩ | ⟨mid, rfl, hmid⟩
  · cases mid with
    | nil =>
      cases hmid
      exact ⟨rfl, by simp⟩
    | cons x mid =>
      obtain ⟨rfl, rfl⟩ := List.cons.inj hmid
      exact absurd h Fresh.not_again
  · cases mid with
    | nil =>
      cases hmid
      exact ⟨rfl, by simp⟩
    | cons x mid =>
      obtain ⟨rfl, rfl⟩ := List.cons.inj hmid
      exact absurd (hτ ▸ h) Fresh.not_again

end Trace

end SealedChat
