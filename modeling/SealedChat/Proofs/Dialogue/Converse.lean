import SealedChat.Proofs.Dialogue
import SealedChat.Proofs.Transport

/-!
# Dialogues with each other

Two dialogues can be carried on with each other if, whatever random bytes they draw, there is an
order of steps in which both come to an end, each line that is sent is received on the other side,
and nobody is refused anything. `Converse` says so, step by step in that order.

The order does not matter. A step that one side may take now leaves what the other side may do as it
was, so every step of either side leads to two dialogues that still can be carried on with each other
(`Converse.of_send`, `Converse.of_receive`, `Converse.of_fill`).
-/

namespace SealedChat

variable {α β γ δ : Type}

/-- Whatever is drawn, if no drawing is refused, the result has the property. -/
def Draw.Always (P : α → Prop) : Draw α → Prop
  | .done a => P a
  | .fill _ next => ∀ b, (next (some b)).Always P

theorem Draw.Always.mono {P Q : α → Prop} {d : Draw α} (h : d.Always P) (hQ : ∀ a, P a → Q a) :
    d.Always Q := by
  induction d with
  | done a => exact hQ a h
  | fill n next ih => exact fun b => ih (some b) (h b)

namespace Dialogue

/-- The dialogues can be carried on with each other from where these lines are on their way to the
right and to the left, and end with such results. Lines to the left are clean for a reader with limit
`l`, and those to the right for one with limit `r`. -/
inductive Converse (l r : Nat) (P : α → β → Prop) :
    Dialogue α → Dialogue β → List Bytes → List Bytes → Prop
  | done {a : α} {b : β} : P a b → Converse l r P (done a) (done b) [] []
  | sendLeft {line : Bytes} {next : Outcome Unit → Dialogue α} {d' : Dialogue β}
      {q q' : List Bytes} : IsClean r line → Converse l r P (next (.ok ())) d' (q ++ [line]) q' →
      Converse l r P (send line next) d' q q'
  | sendRight {line : Bytes} {d : Dialogue α} {next : Outcome Unit → Dialogue β}
      {q q' : List Bytes} : IsClean l line → Converse l r P d (next (.ok ())) q (q' ++ [line]) →
      Converse l r P d (send line next) q q'
  | receiveLeft {limit : Option Duration} {line : Bytes} {next : Outcome Bytes → Dialogue α}
      {d' : Dialogue β} {q q' : List Bytes} : Converse l r P (next (.ok line)) d' q q' →
      Converse l r P (receive limit next) d' q (line :: q')
  | receiveRight {limit : Option Duration} {line : Bytes} {d : Dialogue α}
      {next : Outcome Bytes → Dialogue β} {q q' : List Bytes} :
      Converse l r P d (next (.ok line)) q q' → Converse l r P d (receive limit next) (line :: q) q'
  | fillLeft {n : Nat} {next : Option (Block n) → Dialogue α} {d' : Dialogue β}
      {q q' : List Bytes} : (∀ b, Converse l r P (next (some b)) d' q q') →
      Converse l r P (fill n next) d' q q'
  | fillRight {n : Nat} {d : Dialogue α} {next : Option (Block n) → Dialogue β}
      {q q' : List Bytes} : (∀ b, Converse l r P d (next (some b)) q q') →
      Converse l r P d (fill n next) q q'

namespace Converse

variable {l r : Nat} {P : α → β → Prop} {d : Dialogue α} {d' : Dialogue β} {q q' : List Bytes}

/-- The same, seen from the other side. -/
theorem swap (h : Converse l r P d d' q q') : Converse r l (fun b a => P a b) d' d q' q := by
  induction h with
  | done h => exact .done h
  | sendLeft hl _ ih => exact .sendRight hl ih
  | sendRight hl _ ih => exact .sendLeft hl ih
  | receiveLeft _ ih => exact .receiveRight ih
  | receiveRight _ ih => exact .receiveLeft ih
  | fillLeft _ ih => exact .fillRight ih
  | fillRight _ ih => exact .fillLeft ih

/-! ## Sequences -/

/-- One conversation after the other. -/
theorem bind {Q : γ → δ → Prop} {f : α → Dialogue γ} {f' : β → Dialogue δ}
    (h : Converse l r P d d' q q') (hf : ∀ a b, P a b → Converse l r Q (f a) (f' b) [] []) :
    Converse l r Q (d >>= f) (d' >>= f') q q' := by
  induction h with
  | done h => exact hf _ _ h
  | sendLeft hl _ ih => exact .sendLeft hl ih
  | sendRight hl _ ih => exact .sendRight hl ih
  | receiveLeft _ ih => exact .receiveLeft ih
  | receiveRight _ ih => exact .receiveRight ih
  | fillLeft _ ih => exact .fillLeft ih
  | fillRight _ ih => exact .fillRight ih

/-- The left side makes something of its result. -/
theorem mapLeft {Q : γ → β → Prop} {f : α → γ} (h : Converse l r P d d' q q')
    (hf : ∀ a b, P a b → Q (f a) b) : Converse l r Q (d >>= fun a => pure (f a)) d' q q' := by
  rw [← bind_pure d']
  exact h.bind fun a b hP => .done (hf a b hP)

theorem mono {Q : α → β → Prop} (h : Converse l r P d d' q q') (hQ : ∀ a b, P a b → Q a b) :
    Converse l r Q d d' q q' := by
  rw [← bind_pure d]
  exact h.mapLeft hQ

/-- The left side draws before it goes on. -/
theorem draw {x : Draw γ} {f : γ → Dialogue α}
    (h : x.Always fun c => Converse l r P (f c) d' q q') :
    Converse l r P (ofDraw x >>= f) d' q q' := by
  induction x with
  | done c => exact h
  | fill n next ih => exact .fillLeft fun b => ih (some b) (h b)

theorem draw_exchange {x : Draw γ} {f : γ → Exchange α} {P : Outcome α → β → Prop}
    (h : x.Always fun c => Converse l r P (f c).run d' q q') :
    Converse l r P (Exchange.ofDraw x >>= f).run d' q q' := by
  have heq : (Exchange.ofDraw x >>= f).run = Dialogue.ofDraw x >>= fun c => (f c).run :=
    bind_assoc ..
  rw [heq]
  exact .draw h

/-- Exchanges that both succeed leave the line open. -/
theorem orClose {x : Exchange α} {x' : Exchange β}
    (h : Converse l r (fun o o' => ∃ a b, o = .ok a ∧ o' = .ok b ∧ P a b) x.run x'.run q q') :
    Converse l r (fun o o' => ∃ a b, o = .ok a ∧ o' = .ok b ∧ P a b) x.orClose x'.orClose q q' := by
  refine h.bind fun o o' ho => ?_
  obtain ⟨a, b, rfl, rfl, h⟩ := ho
  exact .done ⟨a, b, rfl, rfl, h⟩

/-! ## Any order -/

/-- A line may be sent at any time. -/
theorem of_send {line : Bytes} {next : Outcome Unit → Dialogue α}
    (h : Converse l r P (send line next) d' q q') :
    IsClean r line ∧ Converse l r P (next (.ok ())) d' (q ++ [line]) q' := by
  generalize hd : send line next = d at h
  induction h with
  | done _ => cases hd
  | sendLeft hl h _ =>
    cases hd
    exact ⟨hl, h⟩
  | sendRight hl' _ ih => exact ⟨(ih hd).1, .sendRight hl' (ih hd).2⟩
  | receiveLeft _ _ => cases hd
  | receiveRight _ ih => exact ⟨(ih hd).1, .receiveRight (ih hd).2⟩
  | fillLeft _ _ => cases hd
  | fillRight _ ih => exact ⟨(ih (.ofPrefix _ []) hd).1, .fillRight fun b => (ih b hd).2⟩

/-- A line may be received as soon as it is there. -/
theorem of_receive {limit : Option Duration} {line : Bytes} {next : Outcome Bytes → Dialogue α}
    (h : Converse l r P (receive limit next) d' q (line :: q')) :
    Converse l r P (next (.ok line)) d' q q' := by
  generalize hd : receive limit next = d at h
  generalize hq : line :: q' = q'' at h
  induction h generalizing q' with
  | done _ => cases hd
  | sendLeft _ _ _ => cases hd
  | sendRight hl _ ih =>
    subst hq
    exact .sendRight hl (ih hd rfl)
  | receiveLeft h _ =>
    cases hd
    cases hq
    exact h
  | receiveRight _ ih => exact .receiveRight (ih hd hq)
  | fillLeft _ _ => cases hd
  | fillRight _ ih => exact .fillRight fun b => ih b hd hq

/-- Random bytes may be drawn at any time. -/
theorem of_fill {n : Nat} {next : Option (Block n) → Dialogue α}
    (h : Converse l r P (fill n next) d' q q') (b : Block n) :
    Converse l r P (next (some b)) d' q q' := by
  generalize hd : fill n next = d at h
  induction h with
  | done _ => cases hd
  | sendLeft _ _ _ => cases hd
  | sendRight hl _ ih => exact .sendRight hl (ih hd)
  | receiveLeft _ _ => cases hd
  | receiveRight _ ih => exact .receiveRight (ih hd)
  | fillLeft h _ =>
    cases hd
    exact h b
  | fillRight _ ih => exact .fillRight fun b' => ih b' hd

/-- Nobody hangs up. -/
theorem not_close {next : Dialogue α} : ¬Converse l r P (close next) d' q q' := by
  intro h
  generalize hd : close next = d at h
  induction h with
  | done _ => cases hd
  | sendLeft _ _ _ => cases hd
  | sendRight _ _ ih => exact ih hd
  | receiveLeft _ _ => cases hd
  | receiveRight _ ih => exact ih hd
  | fillLeft _ _ => cases hd
  | fillRight _ ih => exact ih (.ofPrefix _ []) hd

/-- Every conversation has a course. -/
theorem exists_runs (h : Converse l r P d d' q q') :
    ∃ es es' a b, d.Runs es a ∧ d'.Runs es' b ∧ P a b := by
  induction h with
  | done h => exact ⟨[], [], _, _, .done _, .done _, h⟩
  | sendLeft _ _ ih =>
    obtain ⟨es, es', a, b, h, h', hP⟩ := ih
    exact ⟨_ :: es, es', a, b, .send _ h, h', hP⟩
  | sendRight _ _ ih =>
    obtain ⟨es, es', a, b, h, h', hP⟩ := ih
    exact ⟨es, _ :: es', a, b, h, .send _ h', hP⟩
  | receiveLeft _ ih =>
    obtain ⟨es, es', a, b, h, h', hP⟩ := ih
    exact ⟨_ :: es, es', a, b, .receive _ h, h', hP⟩
  | receiveRight _ ih =>
    obtain ⟨es, es', a, b, h, h', hP⟩ := ih
    exact ⟨es, _ :: es', a, b, h, .receive _ h', hP⟩
  | fillLeft _ ih =>
    obtain ⟨es, es', a, b, h, h', hP⟩ := ih (.ofPrefix _ [])
    exact ⟨_ :: es, es', a, b, .fill _ h, h', hP⟩
  | fillRight _ ih =>
    obtain ⟨es, es', a, b, h, h', hP⟩ := ih (.ofPrefix _ [])
    exact ⟨es, _ :: es', a, b, h, .fill _ h', hP⟩

end Converse

end Dialogue

end SealedChat
