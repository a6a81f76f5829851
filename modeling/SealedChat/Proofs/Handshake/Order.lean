import SealedChat.Proofs.Handshake.Steps
import SealedChat.Proofs.History

/-!
# Steps succeed in order

One side of a handshake is called again and again, in any order and with any arguments, and random
bytes may be any, or missing. What it has returned so far is a `History` of its turns.

**What a phase tells of the past.** An initiator that has started nothing has only failed to draw a
challenge, and one that has sent a challenge has sent it in one turn, before and after which it only
failed to draw (`Initiator.Told`). A responder has made no turn, or heard one name, or heard one name
and answered it (`Responder.Told`). Being established or failed tells nothing: nothing succeeds there,
nor anywhere from there (`Initiator.over_of_isLast`, `Responder.over_of_isLast`).

Main result: `Handshake.steps_in_order`. Either side believes what it is told once at most, and only
at the end of the steps before it.
-/

namespace SealedChat.Handshake

/-! ## The initiator -/

namespace Initiator

/-- A call of an initiator, and what it has returned. -/
inductive Turn where
  | start (result : Outcome Message)
  | startWith (challenge : Challenge) (result : Outcome Message)
  | onReply (text : String) (result : Outcome (Secrets × Message))

namespace Turn

def succeeds : Turn → Bool
  | start result => result.isOk
  | startWith _ result => result.isOk
  | onReply _ result => result.isOk

/-- The first message, of a turn that has produced it. -/
def sent? : Turn → Option Message
  | start result => result.toOption
  | startWith _ result => result.toOption
  | onReply _ _ => none

def isReply : Turn → Bool
  | onReply _ _ => true
  | _ => false

/-- A reply has been believed. -/
def believes (t : Turn) : Bool := t.isReply && t.succeeds

/-- No challenge could be drawn. -/
def IsDry (t : Turn) : Prop := t = start (.error .entropyExhausted)

/-- A reply has come, or a step was refused. -/
def IsLast (t : Turn) : Prop := t.isReply ∨ (t.succeeds = false ∧ ¬ t.IsDry)

end Turn

/-- The turns that an initiator can take, and the initiator after each. -/
inductive Takes (i : Initiator) : Turn → Initiator → Prop where
  | start {answers : List Draw.Answer} {result : Outcome Message} {j : Initiator}
      (h : i.start.Runs answers (result, j)) : Takes i (.start result) j
  | startWith (c : Challenge) : Takes i (.startWith c (i.startWith c).1) (i.startWith c).2
  | onReply (text : String) : Takes i (.onReply text (i.onReply text).1) (i.onReply text).2

variable {i j : Initiator} {t : Turn} {turns : List Turn}

/-- **What a turn does.** It fails for want of a challenge and changes nothing, it sends the first
message, it believes the reply that echoes the challenge, or it fails for good. -/
theorem Takes.cases (h : Takes i t j) :
    (t.IsDry ∧ j = i) ∨
    (∃ c, i.phase = .init ∧ t.isReply = false ∧ t.sent? = some (.authenticate i.identity c) ∧
      j = { i with phase := .challengeSent c }) ∨
    (∃ ca cb s, i.phase = .challengeSent ca ∧
      t = .onReply (Message.accept ca cb s).encode (.ok (s, .confirm cb)) ∧
      j = { i with phase := .established }) ∨
    (¬ t.IsDry ∧ t.succeeds = false ∧ j = { i with phase := .failed }) := by
  cases h with
  | @start answers result j h =>
    rcases runs_start h with ⟨c, h⟩ | h
    · by_cases hp : i.phase = .init
      · rw [startWith_of_init hp] at h
        cases h
        exact .inr (.inl ⟨c, hp, rfl, rfl, rfl⟩)
      · rw [startWith_of_ne_init hp] at h
        cases h
        exact .inr (.inr (.inr ⟨by simp [Turn.IsDry, ChatError.wrongState,
          ChatError.entropyExhausted], rfl, rfl⟩))
    · cases h
      exact .inl ⟨rfl, rfl⟩
  | startWith c =>
    by_cases hp : i.phase = .init
    · rw [startWith_of_init hp]
      exact .inr (.inl ⟨c, hp, rfl, rfl, rfl⟩)
    · rw [startWith_of_ne_init hp]
      exact .inr (.inr (.inr ⟨by simp [Turn.IsDry], rfl, rfl⟩))
  | onReply text =>
    rcases onReply_cases i text with ⟨ca, cb, s, hp, ht, hr⟩ | ⟨e, hr⟩
    · subst ht
      rw [hr]
      exact .inr (.inr (.inl ⟨ca, cb, s, hp, rfl, rfl⟩))
    · rw [hr]
      exact .inr (.inr (.inr ⟨by simp [Turn.IsDry], rfl, rfl⟩))

theorem Turn.IsDry.fails (h : t.IsDry) :
    t.succeeds = false ∧ t.sent? = none ∧ t.isReply = false := by
  subst h
  exact ⟨rfl, rfl, rfl⟩

theorem Turn.succeeds_of_sent {m : Message} (h : t.sent? = some m) : t.succeeds := by
  cases t with
  | start result =>
    cases result with
    | error e => cases h
    | ok m => rfl
  | startWith c result =>
    cases result with
    | error e => cases h
    | ok m => rfl
  | onReply text result => cases h

theorem Takes.identity_eq (h : Takes i t j) : j.identity = i.identity := by
  rcases h.cases with ⟨-, hj⟩ | ⟨c, -, -, -, hj⟩ | ⟨ca, cb, s, -, -, hj⟩ | ⟨-, -, hj⟩ <;> rw [hj]

/-- A dry turn changes nothing. -/
theorem Takes.of_isDry (h : Takes i t j) (ht : t.IsDry) : j = i := by
  rcases h.cases with ⟨-, hj⟩ | ⟨c, -, -, hs, -⟩ | ⟨ca, cb, s, -, hr, -⟩ | ⟨hne, -⟩
  · exact hj
  · simp [ht.fails.2.1] at hs
  · rw [Turn.IsDry, hr] at ht
    cases ht
  · exact absurd ht hne

/-- The turn that sends the first message is taken by a new initiator. -/
theorem Takes.of_sent {ca : Challenge} (h : Takes i t j)
    (hs : t.sent? = some (.authenticate i.identity ca)) : j.phase = .challengeSent ca := by
  rcases h.cases with ⟨hd, -⟩ | ⟨c, -, -, hc, hj⟩ | ⟨_, cb, s, -, hr, -⟩ | ⟨-, hf, -⟩
  · simp [hd.fails.2.1] at hs
  · rw [hc] at hs
    cases hs
    rw [hj]
  · simp [hr, Turn.sent?] at hs
  · simp [Turn.succeeds_of_sent hs] at hf

/-! ### What a phase tells -/

/-- The turns, but for dry ones, are one that has sent the challenge. -/
def Asked (identity : String) (c : Challenge) (turns : List Turn) : Prop :=
  ∃ before hello after, turns = before ++ hello :: after ∧
    hello.sent? = some (.authenticate identity c) ∧
    (∀ t ∈ before, t.IsDry) ∧ ∀ t ∈ after, t.IsDry

/-- What the phase of an initiator tells of its turns so far. -/
def Told (identity : String) (turns : List Turn) : Phase → Prop
  | .init => ∀ t ∈ turns, t.IsDry
  | .challengeSent c => Asked identity c turns
  | _ => True

theorem Asked.snoc {identity : String} {c : Challenge} (h : Asked identity c turns)
    (ht : t.IsDry) : Asked identity c (turns ++ [t]) := by
  obtain ⟨before, hello, after, hturns, hs, hb, ha⟩ := h
  refine ⟨before, hello, after ++ [t], by simp [hturns], hs, hb, ?_⟩
  intro u hu
  rcases List.mem_append.1 hu with hu | hu
  · exact ha u hu
  · rw [List.mem_singleton.1 hu]
    exact ht

/-- Every turn keeps what the phase tells. -/
theorem Told.turn (h : Told i.identity turns i.phase) (ht : Takes i t j) :
    Told j.identity (turns ++ [t]) j.phase := by
  rcases ht.cases with ⟨hd, hj⟩ | ⟨c, hp, -, hs, hj⟩ | ⟨ca, cb, s, hp, hr, hj⟩ | ⟨-, -, hj⟩
  · rw [hj]
    cases hp : i.phase with
    | init =>
      rw [hp] at h
      intro u hu
      rcases List.mem_append.1 hu with hu | hu
      · exact h u hu
      · rw [List.mem_singleton.1 hu]
        exact hd
    | challengeSent c =>
      rw [hp] at h
      exact h.snoc hd
    | established => trivial
    | failed => trivial
  · rw [hj]
    rw [hp] at h
    exact ⟨turns, t, [], rfl, hs, h, by simp⟩
  · rw [hj]
    trivial
  · rw [hj]
    trivial

theorem told {identity : String} (hi : i = ⟨identity, .init⟩) (h : History Takes i turns j) :
    j.identity = identity ∧ Told identity turns j.phase := by
  have hstep : ∀ past i t j, (i.identity = identity ∧ Told identity past i.phase) → Takes i t j →
      (j.identity = identity ∧ Told identity (past ++ [t]) j.phase) := by
    intro past i t j hpast ht
    have hid : j.identity = identity := ht.identity_eq.trans hpast.1
    refine ⟨hid, ?_⟩
    have hnext := Told.turn (by rw [hpast.1]; exact hpast.2) ht
    rwa [hid] at hnext
  have hstart : i.identity = identity ∧ Told identity [] i.phase := by
    subst hi
    exact ⟨rfl, by simp [Told]⟩
  exact h.keeps hstep hstart

/-- What was asked is still awaited. -/
theorem phase_of_asked {identity : String} {c : Challenge} (hi : i.identity = identity)
    (h : History Takes i turns j) (ha : Asked identity c turns) : j.phase = .challengeSent c := by
  obtain ⟨before, hello, after, rfl, hs, hb, ha⟩ := ha
  obtain ⟨m, m', hbefore, hhello, hafter⟩ := History.turn_iff.1 h
  have hm : m = i := hbefore.stays (f := id) (fun _ _ _ hd ht => ht.of_isDry hd) hb
  have hj : j = m' := hafter.stays (f := id) (fun _ _ _ hd ht => ht.of_isDry hd) ha
  rw [hj]
  rw [← hi, ← hm] at hs
  exact hhello.of_sent hs

/-- Nothing is left to do, or to be done. -/
def IsOver (i : Initiator) : Prop := i.phase = .established ∨ i.phase = .failed

/-- **Nothing succeeds** once an initiator is established or has failed. -/
theorem Takes.fails_of_isOver (h : Takes i t j) (hi : i.IsOver) :
    t.succeeds = false ∧ j.IsOver := by
  rcases h.cases with ⟨hd, hj⟩ | ⟨c, hp, -⟩ | ⟨ca, cb, s, hp, -⟩ | ⟨-, hf, hj⟩
  · rw [hj]
    exact ⟨hd.fails.1, hi⟩
  · simp [IsOver, hp] at hi
  · simp [IsOver, hp] at hi
  · rw [hj]
    exact ⟨hf, .inr rfl⟩

/-- A reply, believed or refused, is the last that is compared. -/
theorem Takes.of_isLast (h : Takes i t j) (ht : t.IsLast) : j.IsOver := by
  rcases h.cases with ⟨hd, -⟩ | ⟨c, -, hr, hs, -⟩ | ⟨ca, cb, s, -, -, hj⟩ | ⟨-, -, hj⟩
  · simp [Turn.IsLast, hd.fails.2.2, hd] at ht
  · simp [Turn.IsLast, hr, Turn.succeeds_of_sent hs] at ht
  · rw [hj]
    exact .inl rfl
  · rw [hj]
    exact .inr rfl

/-- After a last turn nothing succeeds. -/
theorem over_of_isLast {before after : List Turn} (h : History Takes i (before ++ t :: after) j)
    (ht : t.IsLast) : (∀ u ∈ after, u.succeeds = false) ∧ j.IsOver :=
  h.forall_after (fun _ _ _ hi hu => hu.fails_of_isOver hi) (fun _ _ _ hl hu => hu.of_isLast hl) ht

theorem Takes.of_believed {text : String} {secrets : Secrets} {m : Message}
    (h : Takes i (.onReply text (.ok (secrets, m))) j) :
    ∃ ca cb, i.phase = .challengeSent ca ∧ text = (Message.accept ca cb secrets).encode ∧
      m = .confirm cb := by
  rcases h.cases with ⟨hd, -⟩ | ⟨c, -, hr, -⟩ | ⟨ca, cb, s, hp, hr, -⟩ | ⟨-, hf, -⟩
  · cases hd
  · cases hr
  · cases hr
    exact ⟨ca, cb, hp, rfl, rfl⟩
  · cases hf

/-! ### All courses -/

/-- What holds of every course of an initiator. -/
structure InOrder (identity : String) (turns : List Turn) (i : Initiator) : Prop where
  /-- A reply is believed when it returns the challenge that was sent, in the only turn before it
  that has changed anything. -/
  believed : ∀ before text secrets m after,
    turns = before ++ .onReply text (.ok (secrets, m)) :: after →
      ∃ ca cb, Asked identity ca before ∧ text = (Message.accept ca cb secrets).encode ∧
        m = .confirm cb
  /-- It is believed whenever it is all that is missing. -/
  awaited : ∀ ca cb secrets, Asked identity ca turns →
    (i.onReply (Message.accept ca cb secrets).encode).1 = .ok (secrets, .confirm cb)
  once : turns.countP Turn.believes ≤ 1
  last : ∀ before t after, turns = before ++ t :: after → t.IsLast →
    ∀ u ∈ after, u.succeeds = false
  /-- A challenge that a reply has been compared with is gone. -/
  compared : (∃ t ∈ turns, t.isReply) → i.progress ≠ .challengeSent
  /-- A turn without random bytes changes nothing. -/
  unchanged : ∀ t j, t.IsDry → Takes i t j → j = i

theorem inOrder {identity : String} (hi : new identity = .ok i) (h : History Takes i turns j) :
    InOrder identity turns j := by
  obtain ⟨-, hi⟩ := new_eq_ok_iff.1 hi
  have hlast : ∀ before t after, turns = before ++ t :: after → t.IsLast →
      ∀ u ∈ after, u.succeeds = false := by
    intro before t after hturns ht
    exact (over_of_isLast (hturns ▸ h) ht).1
  refine ⟨?_, ?_, ?_, hlast, ?_, fun _ _ hd ht => ht.of_isDry hd⟩
  · intro before text secrets m after hturns
    obtain ⟨k, k', hbefore, hreply, -⟩ := History.turn_iff.1 (hturns ▸ h)
    obtain ⟨ca, cb, hp, ht, hm⟩ := hreply.of_believed
    have htold := (told hi hbefore).2
    rw [hp] at htold
    exact ⟨ca, cb, htold, ht, hm⟩
  · intro ca cb secrets hasked
    have hp := phase_of_asked (by rw [hi]) h hasked
    rw [onReply_of_accept hp]
  · apply countP_le_one
    intro before t after hturns ht u hu hu'
    simp only [Turn.believes, Bool.and_eq_true] at ht hu'
    simp [hlast before t after hturns (.inl ht.1) u hu] at hu'
  · intro ⟨t, ht, hr⟩
    obtain ⟨before, after, hturns⟩ := List.append_of_mem ht
    have hover := (over_of_isLast (hturns ▸ h) (.inl hr)).2
    rcases hover with hp | hp <;> simp [progress, hp]

end Initiator

/-! ## The responder -/

namespace Responder

/-- A call of a responder, and what it has returned. -/
inductive Turn where
  | onAuthenticate (text : String) (result : Outcome (String × Challenge))
  | reply (challenge : Challenge) (result : Outcome (Secrets × Message))
  | onConfirm (text : String) (result : Outcome String)

namespace Turn

def succeeds : Turn → Bool
  | onAuthenticate _ result => result.isOk
  | reply _ result => result.isOk
  | onConfirm _ result => result.isOk

def isConfirm : Turn → Bool
  | onConfirm _ _ => true
  | _ => false

/-- A claim has been believed. -/
def believes (t : Turn) : Bool := t.isConfirm && t.succeeds

/-- A confirmation has come, or a step was refused. -/
def IsLast (t : Turn) : Prop := t.isConfirm ∨ t.succeeds = false

end Turn

/-- The turns that a responder can take, and the responder after each. -/
inductive Takes (r : Responder) : Turn → Responder → Prop where
  | onAuthenticate (text : String) :
      Takes r (.onAuthenticate text (r.onAuthenticate text).1) (r.onAuthenticate text).2
  | reply {c : Challenge} {answers : List Draw.Answer} {result : Outcome (Secrets × Message)}
      {r' : Responder} (h : (r.reply c).Runs answers (result, r')) : Takes r (.reply c result) r'
  | onConfirm (text : String) :
      Takes r (.onConfirm text (r.onConfirm text).1) (r.onConfirm text).2

variable {r r' : Responder} {t : Turn} {turns : List Turn}

/-- **What a turn does.** It hears a name, answers the one it has heard, believes it when its own
challenge comes back, or fails for good. -/
theorem Takes.cases (h : Takes r t r') :
    (∃ name c, r.phase = .init ∧ r.declared = none ∧
      t = .onAuthenticate (Message.authenticate name c).encode (.ok (name, c)) ∧
      r' = { r with declared := some name }) ∨
    (∃ c cb s, r.phase = .init ∧ r.declared.isSome ∧
      t = .reply c (.ok (s, .accept c cb s)) ∧
      r' = { r with phase := .awaitingConfirmation cb }) ∨
    (∃ text name cb, r.phase = .awaitingConfirmation cb ∧ r.declared = some name ∧
      String.ofList (Blank.trim text.toList) = cb.toBase64 ∧ t = .onConfirm text (.ok name) ∧
      r' = { r with phase := .established }) ∨
    (t.succeeds = false ∧ r' = { r with phase := .failed }) := by
  cases h with
  | onAuthenticate text =>
    rcases onAuthenticate_cases r text with ⟨name, c, hp, hd, -, ht, hr⟩ | ⟨e, hr⟩
    · subst ht
      rw [hr]
      exact .inl ⟨name, c, hp, hd, rfl, rfl⟩
    · rw [hr]
      exact .inr (.inr (.inr ⟨rfl, rfl⟩))
  | @reply c _ _ _ h =>
    rcases runs_reply h with ⟨cb, s, hp, hd, hr⟩ | ⟨e, hr⟩
    · cases hr
      exact .inr (.inl ⟨c, cb, s, hp, hd, rfl, rfl⟩)
    · cases hr
      exact .inr (.inr (.inr ⟨rfl, rfl⟩))
  | onConfirm text =>
    rcases onConfirm_cases r text with ⟨name, cb, hp, hd, ht, hr⟩ | ⟨e, hr⟩
    · rw [hr]
      exact .inr (.inr (.inl ⟨text, name, cb, hp, hd, Message.parseConfirm_eq_ok_iff.1 ht, rfl, rfl⟩))
    · rw [hr]
      exact .inr (.inr (.inr ⟨rfl, rfl⟩))

/-! ### What a phase tells -/

/-- The one turn has heard a name. -/
def Heard (name : String) (turns : List Turn) : Prop :=
  ∃ c, turns = [.onAuthenticate (Message.authenticate name c).encode (.ok (name, c))]

/-- The two turns have heard a name and answered with a challenge. -/
def Answered (name : String) (cb : Challenge) (turns : List Turn) : Prop :=
  ∃ ca c secrets, turns =
    [.onAuthenticate (Message.authenticate name ca).encode (.ok (name, ca)),
      .reply c (.ok (secrets, .accept c cb secrets))]

/-- What the phase of a responder and the name it has heard tell of its turns so far. -/
def Told (turns : List Turn) (declared : Option String) : Phase → Prop
  | .init =>
    match declared with
    | none => turns = []
    | some name => Heard name turns
  | .awaitingConfirmation cb => ∃ name, declared = some name ∧ Answered name cb turns
  | _ => True

/-- Every turn keeps what the phase tells. -/
theorem Told.turn (h : Told turns r.declared r.phase) (ht : Takes r t r') :
    Told (turns ++ [t]) r'.declared r'.phase := by
  rcases ht.cases with ⟨name, c, hp, hd, ht, hr⟩ | ⟨c, cb, s, hp, hd, ht, hr⟩ |
    ⟨text, name, cb, hp, hd, hc, ht, hr⟩ | ⟨hf, hr⟩
  · rw [hp, hd] at h
    have hturns : turns = [] := h
    rw [hr, hturns, ht]
    simp only [hp]
    exact ⟨c, rfl⟩
  · obtain ⟨name, hname⟩ := Option.isSome_iff_exists.1 hd
    rw [hp, hname] at h
    obtain ⟨ca, hturns⟩ := h
    rw [hr, hturns, ht]
    exact ⟨name, hname, ca, c, s, rfl⟩
  · rw [hr]
    trivial
  · rw [hr]
    trivial

theorem told (h : History Takes new turns r) : Told turns r.declared r.phase := by
  have hstep : ∀ past (r : Responder) t r', Told past r.declared r.phase → Takes r t r' →
      Told (past ++ [t]) r'.declared r'.phase := fun _ _ _ _ => Told.turn
  have hstart : Told [] new.declared new.phase := rfl
  exact h.keeps hstep hstart

theorem Takes.of_heard {text name : String} {c : Challenge}
    (h : Takes new (.onAuthenticate text (.ok (name, c))) r) : r = ⟨some name, .init⟩ := by
  rcases h.cases with ⟨_, _, -, -, ht, hr⟩ | ⟨_, _, _, -, -, ht, -⟩ | ⟨_, _, _, -, -, -, ht, -⟩ |
    ⟨hf, -⟩
  · cases ht
    exact hr
  · cases ht
  · cases ht
  · cases hf

theorem Takes.of_answered {c ca cb : Challenge} {s secrets : Secrets}
    (h : Takes r (.reply c (.ok (s, .accept ca cb secrets))) r') :
    r' = { r with phase := .awaitingConfirmation cb } := by
  rcases h.cases with ⟨_, _, -, -, ht, -⟩ | ⟨_, _, _, -, -, ht, hr⟩ | ⟨_, _, _, -, -, -, ht, -⟩ |
    ⟨hf, -⟩
  · cases ht
  · cases ht
    exact hr
  · cases ht
  · cases hf

/-- What was answered is to be confirmed. -/
theorem eq_of_answered {name : String} {cb : Challenge} (h : History Takes new turns r)
    (ha : Answered name cb turns) : r = ⟨some name, .awaitingConfirmation cb⟩ := by
  obtain ⟨ca, c, secrets, rfl⟩ := ha
  obtain ⟨m, hheard, h⟩ := History.cons_iff.1 h
  obtain ⟨m', hreply, h⟩ := History.cons_iff.1 h
  rw [History.nil_iff.1 h, hreply.of_answered, hheard.of_heard]

/-- Nothing is left to do, or to be done. -/
def IsOver (r : Responder) : Prop := r.phase = .established ∨ r.phase = .failed

/-- **Nothing succeeds** once a responder is established or has failed. -/
theorem Takes.fails_of_isOver (h : Takes r t r') (hr : r.IsOver) :
    t.succeeds = false ∧ r'.IsOver := by
  rcases h.cases with ⟨name, c, hp, -⟩ | ⟨c, cb, s, hp, -⟩ | ⟨text, name, cb, hp, -⟩ | ⟨hf, hr'⟩
  · simp [IsOver, hp] at hr
  · simp [IsOver, hp] at hr
  · simp [IsOver, hp] at hr
  · rw [hr']
    exact ⟨hf, .inr rfl⟩

/-- A confirmation, believed or refused, is the last that is compared. -/
theorem Takes.of_isLast (h : Takes r t r') (ht : t.IsLast) : r'.IsOver := by
  rcases h.cases with ⟨_, _, -, -, hr, -⟩ | ⟨_, _, _, -, -, hr, -⟩ | ⟨_, _, _, -, -, -, -, hr⟩ |
    ⟨-, hr⟩
  · subst hr
    rcases ht with ht | ht <;> cases ht
  · subst hr
    rcases ht with ht | ht <;> cases ht
  · rw [hr]
    exact .inl rfl
  · rw [hr]
    exact .inr rfl

/-- After a last turn nothing succeeds. -/
theorem over_of_isLast {before after : List Turn} (h : History Takes r (before ++ t :: after) r')
    (ht : t.IsLast) : (∀ u ∈ after, u.succeeds = false) ∧ r'.IsOver :=
  h.forall_after (fun _ _ _ hr hu => hu.fails_of_isOver hr) (fun _ _ _ hl hu => hu.of_isLast hl) ht

theorem Takes.of_believed {text name : String} (h : Takes r (.onConfirm text (.ok name)) r') :
    ∃ cb, r.phase = .awaitingConfirmation cb ∧ r.declared = some name ∧
      String.ofList (Blank.trim text.toList) = cb.toBase64 := by
  rcases h.cases with ⟨_, _, -, -, ht, -⟩ | ⟨_, _, _, -, -, ht, -⟩ | ⟨_, _, cb, hp, hd, hc, ht, -⟩ |
    ⟨hf, -⟩
  · cases ht
  · cases ht
  · cases ht
    exact ⟨cb, hp, hd, hc⟩
  · cases hf

/-! ### All courses -/

/-- What holds of every course of a responder. -/
structure InOrder (turns : List Turn) (r : Responder) : Prop where
  /-- A name is believed when nothing was done but to hear it and to answer it, and the challenge of
  that answer has come back. -/
  believed : ∀ before text name after, turns = before ++ .onConfirm text (.ok name) :: after →
    ∃ cb, Answered name cb before ∧ String.ofList (Blank.trim text.toList) = cb.toBase64
  /-- It is believed whenever that is all that is missing. -/
  awaited : ∀ name cb text, Answered name cb turns →
    String.ofList (Blank.trim text.toList) = cb.toBase64 → (r.onConfirm text).1 = .ok name
  once : turns.countP Turn.believes ≤ 1
  last : ∀ before t after, turns = before ++ t :: after → t.IsLast →
    ∀ u ∈ after, u.succeeds = false
  /-- A challenge that a confirmation has been compared with is gone. -/
  compared : (∃ t ∈ turns, t.isConfirm) → r.progress ≠ .awaitingConfirmation

theorem inOrder (h : History Takes new turns r) : InOrder turns r := by
  have hlast : ∀ before t after, turns = before ++ t :: after → t.IsLast →
      ∀ u ∈ after, u.succeeds = false := by
    intro before t after hturns ht
    exact (over_of_isLast (hturns ▸ h) ht).1
  refine ⟨?_, ?_, ?_, hlast, ?_⟩
  · intro before text name after hturns
    obtain ⟨k, k', hbefore, hconfirm, -⟩ := History.turn_iff.1 (hturns ▸ h)
    obtain ⟨cb, hp, hd, ht⟩ := hconfirm.of_believed
    have htold := told hbefore
    rw [hp, hd] at htold
    obtain ⟨_, hname, ha⟩ := htold
    cases hname
    exact ⟨cb, ha, ht⟩
  · intro name cb text ha ht
    have hr := eq_of_answered h ha
    have hv : r.verifyConfirm text = .ok name := by
      rw [hr]
      exact verifyConfirm_eq_ok_iff.2 ⟨cb, rfl, rfl, Message.parseConfirm_eq_ok_iff.2 ht⟩
    exact hv
  · apply countP_le_one
    intro before t after hturns ht u hu hu'
    simp only [Turn.believes, Bool.and_eq_true] at ht hu'
    simp [hlast before t after hturns (.inl ht.1) u hu] at hu'
  · intro ⟨t, ht, hc⟩
    obtain ⟨before, after, hturns⟩ := List.append_of_mem ht
    have hover := (over_of_isLast (hturns ▸ h) (.inl hc)).2
    rcases hover with hp | hp <;> simp [progress, hp]

end Responder

/-! ## Both sides -/

/-- **Steps succeed in protocol order only.** However one side of a handshake is called, it believes
the other at most once, after exactly the steps that come before and for exactly the text that is
missing; then, or once a step is refused, nothing succeeds any more. -/
theorem steps_in_order :
    (∀ identity i turns j, Initiator.new identity = .ok i → History Initiator.Takes i turns j →
      Initiator.InOrder identity turns j) ∧
    ∀ turns r, History Responder.Takes .new turns r → Responder.InOrder turns r :=
  ⟨fun _ _ _ _ hi h => Initiator.inOrder hi h, fun _ _ h => Responder.inOrder h⟩

/-- A login that first finds no random bytes, and is replied to twice. -/
def Initiator.repliedTwice (name : String) (ca cb : Challenge) (s : Secrets) : List Turn :=
  [.start (.error .entropyExhausted), .startWith ca (.ok (.authenticate name ca)),
    .onReply (Message.accept ca cb s).encode (.ok (s, .confirm cb)),
    .onReply (Message.accept ca cb s).encode (.error .wrongState)]

theorem Initiator.history_repliedTwice (name : String) (ca cb : Challenge) (s : Secrets) :
    History Takes ⟨name, .init⟩ (repliedTwice name ca cb s) ⟨name, .failed⟩ := by
  have hdry : (start ⟨name, .init⟩).Runs [⟨32, none⟩] (.error .entropyExhausted, ⟨name, .init⟩) := by
    rw [start_eq]
    exact .fill none (.done _)
  have hreply : Takes ⟨name, .challengeSent ca⟩ _ _ := .onReply (Message.accept ca cb s).encode
  rw [onReply_of_accept rfl] at hreply
  exact .cons (.start hdry) (.cons (.startWith ca) (.cons hreply (.cons (.onReply _) (.nil _))))

/-- A login that is confirmed. -/
def Responder.confirmed (name : String) (ca cb : Challenge) (s : Secrets) : List Turn :=
  [.onAuthenticate (Message.authenticate name ca).encode (.ok (name, ca)),
    .reply ca (.ok (s, .accept ca cb s)), .onConfirm (Message.confirm cb).encode (.ok name)]

theorem Responder.history_confirmed {name : String} (hv : Principal.IsValid name)
    (ca cb : Challenge) (s : Secrets) :
    History Takes new (confirmed name ca cb s) ⟨some name, .established⟩ := by
  have hheard : Takes new _ _ := .onAuthenticate (Message.authenticate name ca).encode
  rw [onAuthenticate_new hv] at hheard
  have hanswer := runs_reply_ok (r := ⟨some name, .init⟩) ⟨rfl, rfl⟩ ca cb s
  have hconfirm : Takes ⟨some name, .awaitingConfirmation cb⟩ _ _ :=
    .onConfirm (Message.confirm cb).encode
  rw [onConfirm_of_confirm rfl rfl] at hconfirm
  exact .cons hheard (.cons (.reply hanswer) (.cons hconfirm (.nil _)))

theorem steps_in_order_of_login :
    Initiator.InOrder "alice"
      (Initiator.repliedTwice "alice" ⟨.zero 32⟩ ⟨.ofPrefix 32 [1]⟩ ⟨⟨.zero 32⟩, ⟨.zero 16⟩⟩)
      ⟨"alice", .failed⟩ ∧
    Responder.InOrder
      (Responder.confirmed "alice" ⟨.zero 32⟩ ⟨.ofPrefix 32 [1]⟩ ⟨⟨.zero 32⟩, ⟨.zero 16⟩⟩)
      ⟨some "alice", .established⟩ := by
  have hv : Principal.IsValid "alice" := by decide
  exact ⟨steps_in_order.1 _ _ _ _ (Initiator.new_eq_ok_iff.2 ⟨hv, rfl⟩)
      (Initiator.history_repliedTwice "alice" _ _ _),
    steps_in_order.2 _ _ (Responder.history_confirmed hv _ _ _)⟩

end SealedChat.Handshake
