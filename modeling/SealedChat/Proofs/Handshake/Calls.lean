import SealedChat.Proofs.Handshake.Steps

/-!
# The calls of a handshake

What the calls of one side return, in whatever order they are made. The texts that may be handed to
a side and the challenges that a responder may be told to answer are left open, and random bytes may
be any, or missing. The returns of a side are fixed by its phase up to the values in them
(`Initiator.Log`, `Responder.Log`): each succeeds at most once, and only after the one before it.
-/

namespace SealedChat.Handshake

/-- One side of a handshake, and what its calls have returned, the last first. A refused call returns
nothing. -/
structure Party (M A : Type) where
  machine : M
  acts : List A

/-- The party after a call. -/
def Party.after {M A : Type} (p : Party M A) (act : Option A) (m : M) : Party M A :=
  ⟨m, act.toList ++ p.acts⟩

/-! ## Calls of the initiator -/

namespace Initiator

/-- What a call of an initiator returns. -/
inductive Act where
  | sent (m : Message)
  | accepted (secrets : Secrets) (m : Message)

/-- A call of an initiator on texts that are known: what it returns, and the initiator after it. -/
inductive Call (known : String → Prop) (i : Initiator) : Option Act → Initiator → Prop where
  | startWith (c : Challenge) :
      Call known i ((i.startWith c).1.toOption.map .sent) (i.startWith c).2
  | start {answers : List Draw.Answer} {o : Outcome Message} {j : Initiator}
      (h : i.start.Runs answers (o, j)) : Call known i (o.toOption.map .sent) j
  | onReply {text : String} (h : known text) :
      Call known i ((i.onReply text).1.toOption.map fun p => .accepted p.1 p.2) (i.onReply text).2

theorem Call.sends {known : String → Prop} {i : Initiator} (h : i.phase = .init) (c : Challenge) :
    Call known i (some (.sent (.authenticate i.identity c)))
      { i with phase := .challengeSent c } := by
  have : Call known i _ _ := .startWith c
  rwa [startWith_of_init h] at this

theorem Call.accepts {known : String → Prop} {i : Initiator} {c d : Challenge} {s : Secrets}
    (h : i.phase = .challengeSent c) (hk : known (Message.accept c d s).encode) :
    Call known i (some (.accepted s (.confirm d))) { i with phase := .established } := by
  have : Call known i _ _ := .onReply hk
  rwa [onReply_of_accept h] at this

/-- How the returns of an initiator go with its phase. -/
inductive Log (identity : String) : Phase → List Act → Prop where
  | init : Log identity .init []
  | sent (c : Challenge) : Log identity (.challengeSent c) [.sent (.authenticate identity c)]
  | accepted (ca cb : Challenge) (s : Secrets) :
      Log identity .established [.accepted s (.confirm cb), .sent (.authenticate identity ca)]
  | failed {phase : Phase} {acts : List Act} (h : Log identity phase acts) :
      Log identity .failed acts

variable {i j : Initiator} {known : String → Prop} {act : Option Act} {acts : List Act}

theorem Log.startWith (h : Log i.identity i.phase acts) (c : Challenge) :
    Log i.identity (i.startWith c).2.phase
      (((i.startWith c).1.toOption.map .sent).toList ++ acts) := by
  by_cases hp : i.phase = .init
  · rw [startWith_of_init hp]
    rw [hp] at h
    cases h
    exact .sent c
  · rw [startWith_of_ne_init hp]
    exact .failed h

theorem identity_startWith (i : Initiator) (c : Challenge) :
    (i.startWith c).2.identity = i.identity := by
  unfold Initiator.startWith
  split <;> rfl

theorem Call.identity_eq (hc : Call known i act j) : j.identity = i.identity := by
  cases hc with
  | startWith c => exact identity_startWith i c
  | start h =>
    rcases runs_start h with ⟨c, h⟩ | h
    · rw [← identity_startWith i c, ← h]
    · cases h
      rfl
  | onReply h => rfl

/-- A call keeps the returns in step with the phase. -/
theorem Log.call (h : Log i.identity i.phase acts) (hc : Call known i act j) :
    Log j.identity j.phase (act.toList ++ acts) := by
  rw [hc.identity_eq]
  cases hc with
  | startWith c => exact h.startWith c
  | start hs =>
    rcases runs_start hs with ⟨c, hs⟩ | hs
    · have := h.startWith c
      rwa [← hs] at this
    · cases hs
      exact h
  | @onReply text _ =>
    rcases onReply_cases i text with ⟨ca, cb, s, hp, -, hr⟩ | ⟨e, hr⟩
    · rw [hr]
      rw [hp] at h
      cases h
      exact .accepted ca cb s
    · rw [hr]
      exact .failed h

variable {identity : String} {phase : Phase} {s s' : Secrets} {m m' : Message}

theorem Log.of_sent (h : Log identity phase acts) (hm : .sent m ∈ acts) :
    ∃ c, m = .authenticate identity c := by
  induction h with
  | init => simp at hm
  | sent c => exact ⟨c, by simpa using hm⟩
  | accepted ca cb s => exact ⟨ca, by simpa using hm⟩
  | failed _ ih => exact ih hm

theorem Log.of_accepted (h : Log identity phase acts) (hm : .accepted s m ∈ acts) :
    ∃ cb ca, m = .confirm cb ∧ .sent (.authenticate identity ca) ∈ acts := by
  induction h with
  | init => simp at hm
  | sent c => simp at hm
  | accepted ca cb s =>
    simp only [List.mem_cons, Act.accepted.injEq, reduceCtorEq, List.not_mem_nil, or_false] at hm
    exact ⟨cb, ca, hm.2, by simp⟩
  | failed _ ih => exact ih hm

theorem Log.sent_of_phase {c : Challenge} (h : Log identity (.challengeSent c) acts) :
    .sent (.authenticate identity c) ∈ acts := by
  cases h with
  | sent c => simp

theorem Log.accepted_unique (h : Log identity phase acts) (hm : .accepted s m ∈ acts)
    (hm' : .accepted s' m' ∈ acts) : s = s' ∧ m = m' := by
  induction h with
  | init => simp at hm
  | sent c => simp at hm
  | accepted ca cb s => simp_all
  | failed _ ih => exact ih hm hm'

end Initiator

/-! ## Calls of the responder -/

namespace Responder

/-- What a call of a responder returns. -/
inductive Act where
  | heard (identity : String) (challenge : Challenge)
  | answered (secrets : Secrets) (m : Message)
  | confirmed (identity : String)

/-- A call of a responder on texts that are known and challenges that are given: what it returns, and
the responder after it. -/
inductive Call (known : String → Prop) (given : Challenge → Prop) (r : Responder) :
    Option Act → Responder → Prop where
  | onAuthenticate {text : String} (h : known text) :
      Call known given r ((r.onAuthenticate text).1.toOption.map fun p => .heard p.1 p.2)
        (r.onAuthenticate text).2
  | reply {c : Challenge} {answers : List Draw.Answer} {o : Outcome (Secrets × Message)}
      {r' : Responder} (hc : given c) (h : (r.reply c).Runs answers (o, r')) :
      Call known given r (o.toOption.map fun p => .answered p.1 p.2) r'
  | onConfirm {text : String} (h : known text) :
      Call known given r ((r.onConfirm text).1.toOption.map .confirmed) (r.onConfirm text).2

section

variable {known : String → Prop} {given : Challenge → Prop} {r : Responder} {name : String}
  {c : Challenge}

theorem Call.hears (hv : Principal.IsValid name) (hk : known (Message.authenticate name c).encode) :
    Call known given new (some (.heard name c)) ⟨some name, .init⟩ := by
  have : Call known given new _ _ := .onAuthenticate hk
  rwa [onAuthenticate_new hv] at this

theorem Call.answers (h : r.phase = .init ∧ r.declared.isSome) (hc : given c) (d : Challenge)
    (s : Secrets) :
    Call known given r (some (.answered s (.accept c d s)))
      { r with phase := .awaitingConfirmation d } :=
  .reply hc (runs_reply_ok h c d s)

theorem Call.confirms (h : r.phase = .awaitingConfirmation c) (hd : r.declared = some name)
    (hk : known (Message.confirm c).encode) :
    Call known given r (some (.confirmed name)) { r with phase := .established } := by
  have : Call known given r _ _ := .onConfirm hk
  rwa [onConfirm_of_confirm h hd] at this

end

/-- How the returns of a responder go with its phase and with what it takes the other side for. -/
inductive Log : Option String → Phase → List Act → Prop where
  | init : Log none .init []
  | heard (name : String) (c : Challenge) : Log (some name) .init [.heard name c]
  | answered (name : String) (ca cb : Challenge) (s : Secrets) :
      Log (some name) (.awaitingConfirmation cb) [.answered s (.accept ca cb s), .heard name ca]
  | confirmed (name : String) (ca cb : Challenge) (s : Secrets) :
      Log (some name) .established
        [.confirmed name, .answered s (.accept ca cb s), .heard name ca]
  | failed {declared : Option String} {phase : Phase} {acts : List Act}
      (h : Log declared phase acts) : Log declared .failed acts

variable {r r' : Responder} {known : String → Prop} {act : Option Act} {acts : List Act}

/-- A call keeps the returns in step with the phase. -/
theorem Log.call (h : Log r.declared r.phase acts)
    (hc : Call known (fun c => ∃ name, .heard name c ∈ acts) r act r') :
    Log r'.declared r'.phase (act.toList ++ acts) := by
  cases hc with
  | @onAuthenticate text _ =>
    rcases onAuthenticate_cases r text with ⟨name, c, hp, hd, -, -, hr⟩ | ⟨e, hr⟩
    · rw [hr]
      rw [hp, hd] at h
      cases h
      change Log (some name) r.phase [.heard name c]
      rw [hp]
      exact .heard name c
    · rw [hr]
      exact .failed h
  | reply hc hr =>
    rcases runs_reply hr with ⟨cb, s, hp, hd, hr⟩ | ⟨e, hr⟩
    · cases hr
      obtain ⟨name, hn⟩ := Option.isSome_iff_exists.1 hd
      rw [hp, hn] at h
      cases h with
      | heard _ c =>
        obtain ⟨name', hc⟩ := hc
        simp only [List.mem_singleton, Act.heard.injEq] at hc
        change Log r.declared (.awaitingConfirmation cb)
          [.answered s (.accept _ cb s), .heard name c]
        rw [hn, hc.2]
        exact .answered name c cb s
    · cases hr
      exact .failed h
  | @onConfirm text _ =>
    rcases onConfirm_cases r text with ⟨name, c, hp, hd, -, hr⟩ | ⟨e, hr⟩
    · rw [hr]
      rw [hp, hd] at h
      cases h with
      | answered _ ca _ s =>
        change Log r.declared .established
          [.confirmed name, .answered s (.accept ca c s), .heard name ca]
        rw [hd]
        exact .confirmed name ca c s
    · rw [hr]
      exact .failed h

variable {declared : Option String} {phase : Phase} {name name' : String} {c c' : Challenge}
  {s s' : Secrets} {m m' : Message}

theorem Log.of_heard (h : Log declared phase acts) (hm : .heard name c ∈ acts) :
    declared = some name := by
  induction h with
  | init => simp at hm
  | failed _ ih => exact ih hm
  | _ => simp_all

theorem Log.of_answered (h : Log declared phase acts) (hm : .answered s m ∈ acts) :
    ∃ name ca cb, m = .accept ca cb s ∧ .heard name ca ∈ acts := by
  induction h with
  | init => simp at hm
  | heard name c => simp at hm
  | answered name ca cb s => exact ⟨name, ca, cb, by simp_all⟩
  | confirmed name ca cb s => exact ⟨name, ca, cb, by simp_all⟩
  | failed _ ih => exact ih hm

theorem Log.answered_unique (h : Log declared phase acts) (hm : .answered s m ∈ acts)
    (hm' : .answered s' m' ∈ acts) : s = s' ∧ m = m' := by
  induction h with
  | init => simp at hm
  | heard name c => simp at hm
  | failed _ ih => exact ih hm hm'
  | _ => simp_all

theorem Log.declared_of_confirmed (h : Log declared phase acts) (hm : .confirmed name ∈ acts) :
    declared = some name := by
  induction h with
  | init => simp at hm
  | heard name c => simp at hm
  | answered name ca cb s => simp at hm
  | confirmed name ca cb s => simp_all
  | failed _ ih => exact ih hm

theorem Log.answered_of_phase (h : Log declared (.awaitingConfirmation c) acts) :
    ∃ ca s, .answered s (.accept ca c s) ∈ acts := by
  cases h with
  | answered name ca _ s => exact ⟨ca, s, by simp⟩

theorem Log.confirmed_of_phase (h : Log declared .established acts) :
    ∃ name, .confirmed name ∈ acts := by
  cases h with
  | confirmed name ca cb s => exact ⟨name, by simp⟩

end Responder

end SealedChat.Handshake
