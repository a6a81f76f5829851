import SealedChat.Proofs.Handshake.Order

/-!
# Failure is final

A turn that fails leaves a handshake failed, and a failed handshake stays so: whatever it is told,
nothing succeeds any more. There is one exception. An initiator that is asked for its first message
and can draw no challenge returns an error and is left as it was, wherever it stands; it may be asked
again. A responder that can draw nothing for its answer has failed like any other.

Main result: `Handshake.failure_is_final`. The exception is real (`start_without_challenge`).
-/

namespace SealedChat.Handshake

/-! ## The initiator -/

namespace Initiator

variable {i j : Initiator} {t : Turn} {turns : List Turn}

@[simp] theorem progress_eq_failed_iff : i.progress = .failed ↔ i.phase = .failed := by
  cases h : i.phase <;> simp [progress, h]

/-- A turn is dry just when it is a start whose draw is refused. -/
theorem isDry_iff_of_runs {answers : List Draw.Answer} {result : Outcome Message}
    (h : i.start.Runs answers (result, j)) :
    (Turn.start result).IsDry ↔ answers = [⟨32, none⟩] := by
  rw [start_eq, Draw.runs_fill_iff] at h
  obtain ⟨o, rest, hanswers, h⟩ := h
  subst hanswers
  cases o with
  | none =>
    obtain ⟨hrest, hresult⟩ := Draw.runs_done_iff.1 h
    cases hresult
    simp [Turn.IsDry, hrest]
  | some b =>
    obtain ⟨-, hresult⟩ := Draw.runs_done_iff.1 h
    have hdry : ¬(Turn.start (i.startWith ⟨b⟩).1).IsDry := by
      by_cases hp : i.phase = .init
      · simp [startWith_of_init hp, Turn.IsDry]
      · simp [startWith_of_ne_init hp, Turn.IsDry, ChatError.wrongState, ChatError.entropyExhausted]
    rw [← hresult] at hdry
    simp [hdry]

/-- **A turn that fails** leaves the initiator failed, unless it is dry and the initiator had not
failed before. -/
theorem Takes.failed_iff (h : Takes i t j) (ht : t.succeeds = false) :
    j.phase = .failed ↔ ¬ t.IsDry ∨ i.phase = .failed := by
  rcases h.cases with ⟨hd, hj⟩ | ⟨c, -, -, hs, -⟩ | ⟨ca, cb, s, -, hr, -⟩ | ⟨hd, -, hj⟩
  · simp [hj, hd]
  · simp [Turn.succeeds_of_sent hs] at ht
  · simp [hr, Turn.succeeds, Except.isOk, Except.toBool] at ht
  · simp [hj, hd]

/-- Nothing succeeds after a failure, and nothing repairs it. -/
theorem Takes.of_failed (h : Takes i t j) (hi : i.phase = .failed) :
    t.succeeds = false ∧ j.phase = .failed := by
  have ht : t.succeeds = false := (h.fails_of_isOver (.inr hi)).1
  exact ⟨ht, (h.failed_iff ht).2 (.inr hi)⟩

theorem stays_failed (h : History Takes i turns j) (hi : i.phase = .failed) :
    (∀ t ∈ turns, t.succeeds = false) ∧ j.phase = .failed :=
  h.forall_turns (P := fun i => i.phase = .failed) (fun _ _ _ hp hu => hu.of_failed hp) hi

/-- The first message is asked for when no challenge can be drawn. -/
theorem takes_dry (i : Initiator) : Takes i (.start (.error .entropyExhausted)) i := by
  have hdry : i.start.Runs [⟨32, none⟩] (.error .entropyExhausted, i) := by
    rw [start_eq]
    exact .fill none (.done _)
  exact .start hdry

end Initiator

/-! ## The responder -/

namespace Responder

variable {r r' : Responder} {t : Turn} {turns : List Turn}

@[simp] theorem progress_eq_failed_iff : r.progress = .failed ↔ r.phase = .failed := by
  cases h : r.phase <;> simp [progress, h]

/-- **A turn that fails** leaves the responder failed. -/
theorem Takes.failed (h : Takes r t r') (ht : t.succeeds = false) : r'.phase = .failed := by
  rcases h.cases with ⟨_, _, -, -, hr, -⟩ | ⟨_, _, _, -, -, hr, -⟩ | ⟨_, _, _, -, -, -, hr, -⟩ |
    ⟨-, hr⟩
  · simp [hr, Turn.succeeds, Except.isOk, Except.toBool] at ht
  · simp [hr, Turn.succeeds, Except.isOk, Except.toBool] at ht
  · simp [hr, Turn.succeeds, Except.isOk, Except.toBool] at ht
  · rw [hr]

/-- Nothing succeeds after a failure, and nothing repairs it. -/
theorem Takes.of_failed (h : Takes r t r') (hr : r.phase = .failed) :
    t.succeeds = false ∧ r'.phase = .failed := by
  have ht : t.succeeds = false := (h.fails_of_isOver (.inr hr)).1
  exact ⟨ht, h.failed ht⟩

theorem stays_failed (h : History Takes r turns r') (hr : r.phase = .failed) :
    (∀ t ∈ turns, t.succeeds = false) ∧ r'.phase = .failed :=
  h.forall_turns (P := fun r => r.phase = .failed) (fun _ _ _ hp hu => hu.of_failed hp) hr

end Responder

/-! ## Both sides -/

/-- **Failure is final.** However either side has been called, a turn that fails then leaves it
failed, whatever was asked of it and whatever random bytes there were; and if it was failed at first,
every turn since has failed and it still is. The one exception is a start whose draw of a challenge is
refused: it leaves the initiator as it was. -/
theorem failure_is_final {i j : Initiator} {r s : Responder} {turns : List Initiator.Turn}
    {turns' : List Responder.Turn} (h : History Initiator.Takes i turns j)
    (h' : History Responder.Takes r turns' s) :
    (∀ t k, j.Takes t k → t.succeeds = false →
      (k.progress = .failed ↔ ¬t.IsDry ∨ j.progress = .failed) ∧ (t.IsDry → k = j)) ∧
    (∀ answers result k, j.start.Runs answers (result, k) →
      ((Initiator.Turn.start result).IsDry ↔ answers = [⟨32, none⟩])) ∧
    (i.progress = .failed → (∀ t ∈ turns, t.succeeds = false) ∧ j.progress = .failed) ∧
    (∀ t k, s.Takes t k → t.succeeds = false → k.progress = .failed) ∧
    (r.progress = .failed → (∀ t ∈ turns', t.succeeds = false) ∧ s.progress = .failed) := by
  simp only [Initiator.progress_eq_failed_iff, Responder.progress_eq_failed_iff]
  refine ⟨?_, fun _ _ _ hr => Initiator.isDry_iff_of_runs hr, ?_, ?_, ?_⟩
  · intro t k ht hf
    exact ⟨ht.failed_iff hf, ht.of_isDry⟩
  · intro hi
    exact Initiator.stays_failed h hi
  · intro t k ht hf
    exact ht.failed hf
  · intro hr
    exact Responder.stays_failed h' hr

/-- An initiator that is asked twice for its first message has failed, whatever comes then; so has a
responder that is confirmed before it has answered. -/
theorem failure_is_final_of_alice :
    let i : Initiator := ⟨"alice", .challengeSent ⟨.zero 32⟩⟩
    let j : Initiator := ⟨"alice", .failed⟩
    let r : Responder := ⟨some "alice", .failed⟩
    i.Takes (.startWith ⟨.zero 32⟩ (.error .wrongState)) j ∧ j.progress = .failed ∧
      History Initiator.Takes j [.start (.error .entropyExhausted)] j ∧
      ((Initiator.Turn.start (.error .entropyExhausted)).IsDry) ∧
      Responder.Takes ⟨some "alice", .init⟩ (.onConfirm "" (.error .wrongState)) r ∧
      r.progress = .failed := by
  intro i j r
  have htwice : i.Takes (.startWith ⟨.zero 32⟩ (.error .wrongState)) j := .startWith _
  have hwet : ¬(Initiator.Turn.startWith ⟨.zero 32⟩ (.error .wrongState)).IsDry := by
    simp [Initiator.Turn.IsDry]
  have hearly : Responder.Takes ⟨some "alice", .init⟩ (.onConfirm "" (.error .wrongState)) r :=
    .onConfirm ""
  have hnone : j.start.Runs [⟨32, none⟩] (.error .entropyExhausted, j) := by
    rw [Initiator.start_eq]
    exact .fill none (.done _)
  have hafter : History Initiator.Takes j [.start (.error .entropyExhausted)] j :=
    .cons (.start hnone) (.nil j)
  obtain ⟨hfails, -, -, hfails', -⟩ := failure_is_final (.nil i) (.nil ⟨some "alice", .init⟩)
  obtain ⟨-, hdry, hstays, -⟩ := failure_is_final hafter (.nil r)
  have hj : j.progress = .failed := (hfails _ j htwice rfl).1.2 (.inl hwet)
  exact ⟨htwice, (hstays hj).2, hafter, (hdry _ _ j hnone).2 rfl, hearly, hfails' _ r hearly rfl⟩

/-- An initiator that could draw no challenge has not failed. -/
theorem start_without_challenge : ¬∀ identity i turns j t k, Initiator.new identity = .ok i →
    History Initiator.Takes i turns j → j.Takes t k → t.succeeds = false →
      k.progress = .failed := by
  intro h
  have hv : Principal.IsValid "alice" := by decide
  have hfailed := h "alice" ⟨"alice", .init⟩ [] _ _ _ (Initiator.new_eq_ok_iff.2 ⟨hv, rfl⟩) (.nil _)
    (Initiator.takes_dry _) rfl
  cases hfailed

end SealedChat.Handshake
