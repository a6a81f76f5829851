import SealedChat.Dialogue

/-!
# Courses of dialogues

A course of a sequence of steps is a course of the first step followed by one of the rest, so the
courses of a dialogue are found step by step, in the order in which the dialogue is written down.
-/

namespace SealedChat

namespace Dialogue

/-- Requests for random bytes, as they happen in a dialogue. -/
def draws (answers : List Draw.Answer) : List Event := answers.map fun a => .filled a.count a.block

theorem draws_append (answers answers' : List Draw.Answer) :
    draws (answers ++ answers') = draws answers ++ draws answers' :=
  List.map_append

theorem not_mem_draws {line : Bytes} {o : Outcome Unit} {answers : List Draw.Answer} :
    .sent line o ∉ draws answers := by
  intro h
  obtain ⟨a, -, ha⟩ := List.mem_map.1 h
  cases ha

variable {α β : Type} {es : List Event} {a b : α}

/-! ## Single steps -/

theorem runs_done_iff : (done b).Runs es a ↔ es = [] ∧ a = b := by
  constructor
  · rintro ⟨⟩
    exact ⟨rfl, rfl⟩
  · rintro ⟨rfl, rfl⟩
    exact .done a

theorem runs_send_iff {line : Bytes} {next : Outcome Unit → Dialogue α} :
    (send line next).Runs es a ↔ ∃ o rest, es = .sent line o :: rest ∧ (next o).Runs rest a := by
  constructor
  · rintro (_ | ⟨o, h⟩)
    exact ⟨o, _, rfl, h⟩
  · rintro ⟨o, rest, rfl, h⟩
    exact .send o h

theorem runs_receive_iff {limit : Option Duration} {next : Outcome Bytes → Dialogue α} :
    (receive limit next).Runs es a ↔
      ∃ o rest, es = .received limit o :: rest ∧ (next o).Runs rest a := by
  constructor
  · rintro (_ | _ | ⟨o, h⟩)
    exact ⟨o, _, rfl, h⟩
  · rintro ⟨o, rest, rfl, h⟩
    exact .receive o h

theorem runs_close_iff {next : Dialogue α} :
    (close next).Runs es a ↔ ∃ rest, es = .closed :: rest ∧ next.Runs rest a := by
  constructor
  · rintro (_ | _ | _ | h)
    exact ⟨_, rfl, h⟩
  · rintro ⟨rest, rfl, h⟩
    exact .close h

theorem runs_fill_iff {n : Nat} {next : Option (Block n) → Dialogue α} :
    (fill n next).Runs es a ↔ ∃ o rest, es = .filled n o :: rest ∧ (next o).Runs rest a := by
  constructor
  · rintro (_ | _ | _ | _ | ⟨o, h⟩)
    exact ⟨o, _, rfl, h⟩
  · rintro ⟨o, rest, rfl, h⟩
    exact .fill o h

theorem runs_ofDraw_iff {d : Draw α} :
    (ofDraw d).Runs es a ↔ ∃ answers, es = draws answers ∧ d.Runs answers a := by
  induction d generalizing es with
  | done b =>
    rw [ofDraw, runs_done_iff]
    constructor
    · rintro ⟨rfl, rfl⟩
      exact ⟨[], rfl, .done a⟩
    · rintro ⟨answers, rfl, h⟩
      obtain ⟨rfl, rfl⟩ := Draw.runs_done_iff.1 h
      exact ⟨rfl, rfl⟩
  | fill n next ih =>
    constructor
    · rintro (_ | _ | _ | _ | ⟨o, h⟩)
      obtain ⟨answers, rfl, hd⟩ := (ih o).1 h
      exact ⟨⟨n, o⟩ :: answers, rfl, .fill o hd⟩
    · rintro ⟨answers, rfl, h⟩
      obtain ⟨o, rest, rfl, hd⟩ := Draw.runs_fill_iff.1 h
      exact .fill o ((ih o).2 ⟨rest, rfl, hd⟩)

/-- Whatever it does, a dialogue comes to an end. -/
theorem exists_runs (x : Dialogue α) : ∃ es a, x.Runs es a := by
  induction x with
  | done a => exact ⟨[], a, .done a⟩
  | send line next ih =>
    obtain ⟨es, a, h⟩ := ih (.ok ())
    exact ⟨_, a, .send (.ok ()) h⟩
  | receive limit next ih =>
    obtain ⟨es, a, h⟩ := ih (.error .timeout)
    exact ⟨_, a, .receive (.error .timeout) h⟩
  | close next ih =>
    obtain ⟨es, a, h⟩ := ih
    exact ⟨_, a, .close h⟩
  | fill n next ih =>
    obtain ⟨es, a, h⟩ := ih none
    exact ⟨_, a, .fill none h⟩

/-! ## Sequences -/

theorem bind_assoc {γ : Type} (x : Dialogue α) (f : α → Dialogue β) (g : β → Dialogue γ) :
    x >>= f >>= g = x >>= fun a => f a >>= g := by
  induction x with
  | done a => rfl
  | send line next ih => exact congrArg (send line) (funext ih)
  | receive limit next ih => exact congrArg (receive limit) (funext ih)
  | close next ih => exact congrArg close ih
  | fill n next ih => exact congrArg (fill n) (funext ih)

theorem bind_pure (x : Dialogue α) : x >>= pure = x := by
  induction x with
  | done a => rfl
  | send line next ih => exact congrArg (send line) (funext ih)
  | receive limit next ih => exact congrArg (receive limit) (funext ih)
  | close next ih => exact congrArg close ih
  | fill n next ih => exact congrArg (fill n) (funext ih)

theorem Runs.bind {x : Dialogue α} {f : α → Dialogue β} {es' : List Event} {b : β}
    (h : x.Runs es a) (h' : (f a).Runs es' b) : (x >>= f).Runs (es ++ es') b := by
  induction h with
  | done a => exact h'
  | send o _ ih => exact .send o (ih h')
  | receive o _ ih => exact .receive o (ih h')
  | close _ ih => exact .close (ih h')
  | fill o _ ih => exact .fill o (ih h')

theorem runs_bind_iff {x : Dialogue α} {f : α → Dialogue β} {b : β} :
    (x >>= f).Runs es b ↔ ∃ es₁ es₂ a, es = es₁ ++ es₂ ∧ x.Runs es₁ a ∧ (f a).Runs es₂ b := by
  constructor
  · intro h
    induction x generalizing es with
    | done a => exact ⟨[], es, a, rfl, .done a, h⟩
    | send line next ih =>
      obtain _ | ⟨o, h⟩ := h
      obtain ⟨es₁, es₂, a, rfl, h₁, h₂⟩ := ih o h
      exact ⟨_ :: es₁, es₂, a, rfl, .send o h₁, h₂⟩
    | receive limit next ih =>
      obtain _ | _ | ⟨o, h⟩ := h
      obtain ⟨es₁, es₂, a, rfl, h₁, h₂⟩ := ih o h
      exact ⟨_ :: es₁, es₂, a, rfl, .receive o h₁, h₂⟩
    | close next ih =>
      obtain _ | _ | _ | h := h
      obtain ⟨es₁, es₂, a, rfl, h₁, h₂⟩ := ih h
      exact ⟨_ :: es₁, es₂, a, rfl, .close h₁, h₂⟩
    | fill n next ih =>
      obtain _ | _ | _ | _ | ⟨o, h⟩ := h
      obtain ⟨es₁, es₂, a, rfl, h₁, h₂⟩ := ih o h
      exact ⟨_ :: es₁, es₂, a, rfl, .fill o h₁, h₂⟩
  · rintro ⟨es₁, es₂, a, rfl, h₁, h₂⟩
    exact h₁.bind h₂

/-- Nothing more happens where only the result is made into another. -/
theorem runs_bind_done_iff {x : Dialogue α} {f : α → β} {b : β} :
    (x >>= fun a => done (f a)).Runs es b ↔ ∃ a, x.Runs es a ∧ b = f a := by
  rw [runs_bind_iff]
  constructor
  · rintro ⟨es₁, es₂, a, rfl, h₁, h₂⟩
    obtain ⟨rfl, rfl⟩ := runs_done_iff.1 h₂
    exact ⟨a, by rwa [List.append_nil], rfl⟩
  · rintro ⟨a, h, rfl⟩
    exact ⟨es, [], a, by rw [List.append_nil], h, .done _⟩

end Dialogue

/-! ## Dialogues that can fail -/

namespace Exchange

open Dialogue

variable {α β : Type} {es : List Event} {r : Outcome β}

/-- Either the first step fails, or the rest goes on from its result. -/
theorem runs_bind_iff {x : Exchange α} {f : α → Exchange β} :
    (x >>= f).run.Runs es r ↔ (∃ e, r = .error e ∧ x.run.Runs es (.error e)) ∨
      ∃ es₁ es₂ a, es = es₁ ++ es₂ ∧ x.run.Runs es₁ (.ok a) ∧ (f a).run.Runs es₂ r := by
  rw [show (x >>= f).run = x.run >>= ExceptT.bindCont f from rfl, Dialogue.runs_bind_iff]
  constructor
  · rintro ⟨es₁, es₂, e | a, rfl, h₁, h₂⟩
    · obtain ⟨rfl, rfl⟩ := runs_done_iff.1 h₂
      exact .inl ⟨e, rfl, by rwa [List.append_nil]⟩
    · exact .inr ⟨es₁, es₂, a, rfl, h₁, h₂⟩
  · rintro (⟨e, rfl, h⟩ | ⟨es₁, es₂, a, rfl, h₁, h₂⟩)
    · exact ⟨es, [], .error e, by rw [List.append_nil], h, .done _⟩
    · exact ⟨es₁, es₂, .ok a, rfl, h₁, h₂⟩

theorem runs_ofOutcome_iff {o : Outcome β} : (ofOutcome o).run.Runs es r ↔ es = [] ∧ r = o :=
  runs_done_iff

theorem runs_ofDraw_iff {d : Draw β} :
    (ofDraw d).run.Runs es r ↔
      ∃ b answers, r = .ok b ∧ es = draws answers ∧ d.Runs answers b := by
  rw [show (ofDraw d).run = Dialogue.ofDraw d >>= fun b => pure (.ok b) from rfl,
    Dialogue.runs_bind_iff]
  constructor
  · rintro ⟨es₁, es₂, b, rfl, h₁, h₂⟩
    obtain ⟨rfl, rfl⟩ := runs_done_iff.1 h₂
    obtain ⟨answers, rfl, hd⟩ := Dialogue.runs_ofDraw_iff.1 h₁
    exact ⟨b, answers, rfl, by rw [List.append_nil], hd⟩
  · rintro ⟨b, answers, rfl, rfl, hd⟩
    exact ⟨_, [], b, by rw [List.append_nil], Dialogue.runs_ofDraw_iff.2 ⟨answers, rfl, hd⟩, .done _⟩

/-- Telling failures differently changes nothing but the failures. -/
theorem runs_adapt_iff {x : Exchange β} {g : ChatError → ChatError} :
    (ExceptT.adapt g x).run.Runs es r ↔ ∃ o, x.run.Runs es o ∧ r = o.mapError g := by
  rw [show (ExceptT.adapt g x).run = x.run >>= fun o => pure (o.mapError g) from rfl,
    Dialogue.runs_bind_iff]
  constructor
  · rintro ⟨es₁, es₂, o, rfl, h₁, h₂⟩
    obtain ⟨rfl, rfl⟩ := runs_done_iff.1 h₂
    exact ⟨o, by rwa [List.append_nil], rfl⟩
  · rintro ⟨o, h, rfl⟩
    exact ⟨es, [], o, by rw [List.append_nil], h, .done _⟩

/-- A failed exchange ends with the line closed. -/
theorem runs_orClose_iff {x : Exchange β} :
    x.orClose.Runs es r ↔ (∃ b, r = .ok b ∧ x.run.Runs es (.ok b)) ∨
      ∃ e es', r = .error e ∧ es = es' ++ [.closed] ∧ x.run.Runs es' (.error e) := by
  rw [orClose, Dialogue.runs_bind_iff]
  constructor
  · rintro ⟨es₁, es₂, e | b, rfl, h₁, h₂⟩
    · obtain ⟨rest, rfl, h₃⟩ := runs_close_iff.1 h₂
      obtain ⟨rfl, rfl⟩ := runs_done_iff.1 h₃
      exact .inr ⟨e, es₁, rfl, rfl, h₁⟩
    · obtain ⟨rfl, rfl⟩ := runs_done_iff.1 h₂
      exact .inl ⟨b, rfl, by rwa [List.append_nil]⟩
  · rintro (⟨b, rfl, h⟩ | ⟨e, es', rfl, rfl, h⟩)
    · exact ⟨es, [], .ok b, by rw [List.append_nil], h, .done _⟩
    · exact ⟨es', [.closed], .error e, rfl, h, .close (.done _)⟩

end Exchange

end SealedChat
