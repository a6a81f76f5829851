import SealedChat.Proofs.Channel.Layer
import SealedChat.Proofs.Dialogue.Lines

/-!
# One direction of a channel

What goes down through one channel and comes up through another, whatever random bytes are drawn or
refused and whatever becomes of the line. A payload is stopped by one layer, which stays as it is, or
it moves every layer on and comes to the line (`Channel.runs_send_cons`).

Main result: `Channel.Carries.handed`. A payload that comes to the line is one line there, and the
other channel lifts it out of the line.
-/

namespace SealedChat

variable [CipherSuite]

/-! ## Channels -/

namespace Channel

open Dialogue

/-- What one channel sends, the other receives. -/
def Carries : Channel → Channel → Prop := List.Forall₂ Layer.Carries

variable {x : Layer} {c c' c₁ inner : Channel} {payload : Bytes} {es : List Event} {e : ChatError}
  {o : Outcome Unit}

theorem runs_send_nil (h : (send [] payload).Runs es (o, c₁)) : es = [.sent payload o] ∧ c₁ = [] := by
  have h : (Dialogue.send payload fun o => .done (o, [])).Runs es (o, c₁) := h
  obtain ⟨answer, rest, rfl, hdone⟩ := runs_send_iff.1 h
  obtain ⟨rfl, heq⟩ := runs_done_iff.1 hdone
  obtain ⟨rfl, rfl⟩ := Prod.mk.inj heq
  exact ⟨rfl, rfl⟩

/-- **A payload is stopped by the top layer**, or goes down through it and is sent below. -/
theorem runs_send_cons (h : (send (x :: inner) payload).Runs es (o, c₁)) :
    (∃ answers e, es = draws answers ∧ o = .error e ∧ c₁ = x :: inner) ∨
    ∃ answers es' below inner₁, es = draws answers ++ es' ∧ x.Lowers payload below ∧
      (send inner below).Runs es' (o, inner₁) ∧ c₁ = x.advanced :: inner₁ := by
  rw [send_cons] at h
  obtain ⟨es₁, es₂, ⟨lowered, x'⟩, rfl, hdraw, hrest⟩ := runs_bind_iff.1 h
  obtain ⟨answers, rfl, hlower⟩ := runs_ofDraw_iff.1 hdraw
  obtain ⟨e, rfl, rfl⟩ | ⟨below, rfl, hbelow, rfl⟩ := Layer.lowered hlower
  · obtain ⟨rfl, heq⟩ := runs_done_iff.1 hrest
    obtain ⟨rfl, rfl⟩ := Prod.mk.inj heq
    exact .inl ⟨answers, e, List.append_nil _, rfl, rfl⟩
  · obtain ⟨⟨o', inner₁⟩, hinner, heq⟩ := runs_bind_done_iff.1 hrest
    obtain ⟨rfl, rfl⟩ := Prod.mk.inj heq
    exact .inr ⟨answers, es₂, below, inner₁, rfl, hbelow, hinner, rfl⟩

/-- **A payload is stopped by a layer**, or comes to the line. -/
theorem runs_send_cases (h : (send c payload).Runs es (o, c₁)) :
    (∃ answers e, es = draws answers ∧ o = .error e) ∨
    ∃ answers line, es = draws answers ++ [.sent line o] := by
  induction c generalizing payload es c₁ with
  | nil =>
    obtain ⟨rfl, -⟩ := runs_send_nil h
    exact .inr ⟨[], payload, rfl⟩
  | cons x inner ih =>
    obtain ⟨answers, e, hes, ho, -⟩ | ⟨answers, es', below, inner₁, rfl, -, hinner, -⟩ :=
      runs_send_cons h
    · exact .inl ⟨answers, e, hes, ho⟩
    · obtain ⟨answers', e, rfl, ho⟩ | ⟨answers', line, rfl⟩ := ih hinner
      · exact .inl ⟨answers ++ answers', e, (draws_append _ _).symm, ho⟩
      · exact .inr ⟨answers ++ answers', line, by rw [draws_append, List.append_assoc]⟩

/-- **The line to which a payload comes**, whatever becomes of it there: the other channel lifts the
payload out of the line. -/
theorem Carries.handed (hs : CipherSuite.Lawful) (h : Carries c c')
    (hr : (send c payload).Runs es (o, c₁)) {line : Bytes} (hline : .sent line o ∈ es) :
    ∃ c₁', lift c' (.ok line) = (.ok payload, c₁') ∧ Carries c₁ c₁' := by
  induction h generalizing payload es c₁ with
  | nil =>
    obtain ⟨rfl, rfl⟩ := runs_send_nil hr
    obtain ⟨rfl, -⟩ := Event.sent.inj (List.mem_singleton.1 hline)
    exact ⟨[], rfl, .nil⟩
  | cons hl _ ih =>
    obtain ⟨answers, _, rfl, -, -⟩ | ⟨answers, es', below, inner₁, rfl, hbelow, hinner, rfl⟩ :=
      runs_send_cons hr
    · exact absurd hline not_mem_draws
    · have hline := (List.mem_append.1 hline).resolve_left not_mem_draws
      obtain ⟨inner', hup, hcarries⟩ := ih hinner hline
      refine ⟨_, ?_, .cons hl.moved hcarries⟩
      rw [lift_cons_of_ok hup, hl.lift hs hbelow]

/-- A payload that is sent is one line. -/
theorem Carries.sent (hs : CipherSuite.Lawful) (h : Carries c c')
    (hr : (send c payload).Runs es (.ok (), c₁)) :
    ∃ line c₁', said es = [line] ∧ lift c' (.ok line) = (.ok payload, c₁') ∧ Carries c₁ c₁' := by
  obtain ⟨_, _, -, ho⟩ | ⟨answers, line, rfl⟩ := runs_send_cases hr
  · cases ho
  · obtain ⟨c₁', hlift, hcarries⟩ := h.handed hs hr (List.mem_append_right _ (.head _))
    refine ⟨line, c₁', ?_, hlift, hcarries⟩
    rw [said_append, said_draws]
    rfl

/-- Sending leaves what the channel receives as it is. -/
theorem Carries.of_send (h : Carries c' c) (hr : (send c payload).Runs es (o, c₁)) :
    Carries c' c₁ := by
  induction h generalizing payload es c₁ with
  | nil =>
    obtain ⟨-, rfl⟩ := runs_send_nil hr
    exact .nil
  | cons hl hinner ih =>
    obtain ⟨-, _, -, -, rfl⟩ | ⟨-, es', below, inner₁, -, -, hsend, rfl⟩ := runs_send_cons hr
    · exact .cons hl hinner
    · exact .cons (hl.advanced) (ih hsend)

end Channel

end SealedChat
