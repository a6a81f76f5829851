import SealedChat.Handshake.Responder
import SealedChat.Proofs.Handshake.Message

/-!
# The steps of a handshake

What each step of either side returns and where it leads. A step succeeds in one phase and for one
text only; every other call of it leads to the failed phase.
-/

namespace SealedChat.Handshake

/-! ## The initiator -/

namespace Initiator

variable {i : Initiator} {text : String} {secrets : Secrets} {m : Message}

theorem new_eq_ok_iff {identity : String} :
    new identity = .ok i ↔ Principal.IsValid identity ∧ i = ⟨identity, .init⟩ := by
  rw [new, Outcome.bind_eq_ok_iff, ← Principal.check_eq_ok_iff]
  constructor
  · rintro ⟨_, h, hi⟩
    cases hi
    exact ⟨h, rfl⟩
  · rintro ⟨h, rfl⟩
    exact ⟨(), h, rfl⟩

theorem startWith_of_init (h : i.phase = .init) (c : Challenge) :
    i.startWith c = (.ok (.authenticate i.identity c), { i with phase := .challengeSent c }) := by
  rw [startWith, h]

theorem startWith_of_ne_init (h : i.phase ≠ .init) (c : Challenge) :
    i.startWith c = (.error .wrongState, { i with phase := .failed }) := by
  unfold startWith
  split
  next h' => exact absurd h' h
  next => rfl

theorem start_eq (i : Initiator) :
    i.start = .fill 32 fun
      | some b => .done (i.startWith ⟨b⟩)
      | none => .done (.error .entropyExhausted, i) := by
  refine congrArg (Draw.fill 32) (funext fun o => ?_)
  cases o <;> rfl

/-- Starting is starting with some challenge, unless nothing is drawn. -/
theorem runs_start {answers : List Draw.Answer} {o : Outcome Message} {j : Initiator}
    (h : i.start.Runs answers (o, j)) :
    (∃ c, (o, j) = i.startWith c) ∨ (o, j) = (.error .entropyExhausted, i) := by
  rw [start_eq, Draw.runs_fill_iff] at h
  obtain ⟨_ | b, _, -, h⟩ := h
  · exact .inr (Draw.runs_done_iff.1 h).2
  · exact .inl ⟨⟨b⟩, (Draw.runs_done_iff.1 h).2⟩

/-- **A reply is believed** just when it echoes the challenge that was sent. -/
theorem verifyReply_eq_ok_iff :
    i.verifyReply text = .ok (secrets, m) ↔
      ∃ ca cb, i.phase = .challengeSent ca ∧ text = (Message.accept ca cb secrets).encode ∧
        m = .confirm cb := by
  unfold verifyReply
  split
  next sent h =>
    rw [Outcome.bind_eq_ok_iff]
    constructor
    · rintro ⟨⟨ca, cb, s⟩, hp, hm⟩
      rw [Message.parseAccept_eq_ok_iff] at hp
      dsimp only at hm
      split_ifs at hm with hca
      cases hm
      exact ⟨ca, cb, hca ▸ h, hp, rfl⟩
    · rintro ⟨ca, cb, hp, ht, rfl⟩
      rw [h] at hp
      cases hp
      exact ⟨(sent, cb, secrets), Message.parseAccept_eq_ok_iff.2 ht, if_pos rfl⟩
  next h =>
    constructor
    · rintro ⟨⟩
    · rintro ⟨ca, cb, hp, -⟩
      exact absurd hp (h ca)

theorem onReply_cases (i : Initiator) (text : String) :
    (∃ ca cb s, i.phase = .challengeSent ca ∧ text = (Message.accept ca cb s).encode ∧
      i.onReply text = (.ok (s, .confirm cb), { i with phase := .established })) ∨
    ∃ e, i.onReply text = (.error e, { i with phase := .failed }) := by
  unfold onReply
  cases h : i.verifyReply text with
  | error e => exact .inr ⟨e, rfl⟩
  | ok p =>
    obtain ⟨ca, cb, hp, ht, hm⟩ := verifyReply_eq_ok_iff.1 h
    rw [show p = (p.1, .confirm cb) from Prod.ext rfl hm]
    exact .inl ⟨ca, cb, p.1, hp, ht, rfl⟩

theorem onReply_of_accept {ca : Challenge} (h : i.phase = .challengeSent ca) (cb : Challenge)
    (s : Secrets) :
    i.onReply (Message.accept ca cb s).encode =
      (.ok (s, .confirm cb), { i with phase := .established }) := by
  have hr : i.verifyReply (Message.accept ca cb s).encode = .ok (s, .confirm cb) :=
    verifyReply_eq_ok_iff.2 ⟨ca, cb, h, rfl, rfl⟩
  simp only [onReply, hr]
  rfl

end Initiator

/-! ## The responder -/

namespace Responder

variable {r : Responder} {text name : String} {c : Challenge}

theorem onAuthenticate_cases (r : Responder) (text : String) :
    (∃ name c, r.phase = .init ∧ r.declared = none ∧ Principal.IsValid name ∧
      text = (Message.authenticate name c).encode ∧
      r.onAuthenticate text = (.ok (name, c), { r with declared := some name })) ∨
    ∃ e, r.onAuthenticate text = (.error e, { r with phase := .failed }) := by
  unfold onAuthenticate
  split
  next h =>
    split
    next name c hp =>
      obtain ⟨hv, ht⟩ := Message.parseAuthenticate_eq_ok_iff.1 hp
      exact .inl ⟨name, c, h.1, h.2, hv, ht, rfl⟩
    next e _ => exact .inr ⟨e, rfl⟩
  next => exact .inr ⟨.wrongState, rfl⟩

theorem onAuthenticate_new (h : Principal.IsValid name) (c : Challenge) :
    new.onAuthenticate (Message.authenticate name c).encode =
      (.ok (name, c), ⟨some name, .init⟩) := by
  rw [onAuthenticate, if_pos ⟨rfl, rfl⟩, Message.parseAuthenticate_eq_ok_iff.2 ⟨h, rfl⟩]
  rfl

theorem reply_eq (h : r.phase = .init ∧ r.declared.isSome) (c : Challenge) :
    r.reply c =
      let failed := .done (.error .entropyExhausted, { r with phase := .failed })
      .fill 32 fun
        | none => failed
        | some cb => .fill 32 fun
          | none => failed
          | some k => .fill 16 fun
            | none => failed
            | some v => .done (.ok (⟨⟨k⟩, ⟨v⟩⟩, .accept c ⟨cb⟩ ⟨⟨k⟩, ⟨v⟩⟩),
                { r with phase := .awaitingConfirmation ⟨cb⟩ }) := by
  rw [reply, if_pos h]
  refine congrArg (Draw.fill 32) (funext fun o => ?_)
  cases o with
  | none => rfl
  | some cb =>
    refine congrArg (Draw.fill 32) (funext fun o => ?_)
    cases o with
    | none => rfl
    | some k =>
      refine congrArg (Draw.fill 16) (funext fun o => ?_)
      cases o <;> rfl

/-- Any challenge and any secrets may be drawn for an answer. -/
theorem runs_reply_ok (h : r.phase = .init ∧ r.declared.isSome) (c d : Challenge) (s : Secrets) :
    (r.reply c).Runs [⟨32, d.block⟩, ⟨32, s.key.block⟩, ⟨16, s.iv.block⟩]
      (.ok (s, .accept c d s), { r with phase := .awaitingConfirmation d }) := by
  rw [reply_eq h]
  exact .fill _ (.fill _ (.fill _ (.done _)))

/-- A challenge is answered once somebody has been heard, with a challenge and secrets of its own. -/
theorem runs_reply {answers : List Draw.Answer} {o : Outcome (Secrets × Message)} {r' : Responder}
    (h : (r.reply c).Runs answers (o, r')) :
    (∃ cb s, r.phase = .init ∧ r.declared.isSome ∧
      (o, r') = (.ok (s, .accept c cb s), { r with phase := .awaitingConfirmation cb })) ∨
    ∃ e, (o, r') = (.error e, { r with phase := .failed }) := by
  by_cases hr : r.phase = .init ∧ r.declared.isSome
  · rw [reply_eq hr] at h
    obtain ⟨_ | cb, _, -, h⟩ := Draw.runs_fill_iff.1 h
    · exact .inr ⟨_, (Draw.runs_done_iff.1 h).2⟩
    obtain ⟨_ | k, _, -, h⟩ := Draw.runs_fill_iff.1 h
    · exact .inr ⟨_, (Draw.runs_done_iff.1 h).2⟩
    obtain ⟨_ | v, _, -, h⟩ := Draw.runs_fill_iff.1 h
    · exact .inr ⟨_, (Draw.runs_done_iff.1 h).2⟩
    exact .inl ⟨_, _, hr.1, hr.2, (Draw.runs_done_iff.1 h).2⟩
  · rw [reply, if_neg hr] at h
    exact .inr ⟨_, (Draw.runs_done_iff.1 h).2⟩

/-- **A claim is believed** just when the challenge that was sent comes back. -/
theorem verifyConfirm_eq_ok_iff :
    r.verifyConfirm text = .ok name ↔
      ∃ c, r.phase = .awaitingConfirmation c ∧ r.declared = some name ∧
        Message.parseConfirm text = .ok c := by
  unfold verifyConfirm
  split
  next expected h =>
    rw [Outcome.bind_eq_ok_iff]
    constructor
    · rintro ⟨returned, hp, hn⟩
      split_ifs at hn with hc
      split at hn
      next n hd =>
        cases hn
        exact ⟨returned, hc ▸ h, hd, hp⟩
      next => cases hn
    · rintro ⟨c, hc, hd, hp⟩
      rw [h] at hc
      cases hc
      refine ⟨expected, hp, ?_⟩
      rw [if_pos rfl, hd]
      rfl
  next h =>
    constructor
    · rintro ⟨⟩
    · rintro ⟨c, hc, -⟩
      exact absurd hc (h c)

theorem onConfirm_cases (r : Responder) (text : String) :
    (∃ name c, r.phase = .awaitingConfirmation c ∧ r.declared = some name ∧
      Message.parseConfirm text = .ok c ∧
      r.onConfirm text = (.ok name, { r with phase := .established })) ∨
    ∃ e, r.onConfirm text = (.error e, { r with phase := .failed }) := by
  unfold onConfirm
  cases h : r.verifyConfirm text with
  | error e => exact .inr ⟨e, rfl⟩
  | ok name =>
    obtain ⟨c, hc, hd, hp⟩ := verifyConfirm_eq_ok_iff.1 h
    exact .inl ⟨name, c, hc, hd, hp, rfl⟩

theorem onConfirm_of_confirm (h : r.phase = .awaitingConfirmation c) (hd : r.declared = some name) :
    r.onConfirm (Message.confirm c).encode = (.ok name, { r with phase := .established }) := by
  have hr : r.verifyConfirm (Message.confirm c).encode = .ok name :=
    verifyConfirm_eq_ok_iff.2 ⟨c, h, hd, Message.parseConfirm_encode_confirm c⟩
  simp only [onConfirm, hr]
  rfl

end Responder

end SealedChat.Handshake
