import SealedChat.Proofs.Dialogue.Trace
import SealedChat.Proofs.Handshake.Course
import SealedChat.Proofs.Session.Traffic
import SealedChat.Service.Connection

/-!
# What a connection serves

One connection of a server, step after step, while the hub changes behind its back in any way. Its
deeds are its steps, with what happened on the line; its notes are what it has decided in them: the
reply to a request, a logout, or that a login is turned away.

What a connection does from a phase on is said phase by phase:

* somebody logs in (`Serves.of_handshake`) and is bound or turned away (`Serves.of_binding`,
  `Serves.of_refusing`);
* a connection that serves and that puts out a line at all takes one question and gives one answer
  (`Serves.round`), and goes on from there;
* a logout brings it back to the session before the login (`Serves.of_leaving`);
* a connection that gives up does nothing more on its line (`Serves.of_over`).
-/

namespace SealedChat.Connection

open Dialogue

/-! ## Deeds and notes -/

/-- What a connection has decided. -/
inductive Note where
  | reply (line reply : String)
  /-- Somebody asks for a logout. -/
  | farewell
  /-- Somebody who has logged in is turned away. -/
  | refused

/-- The note says that this is the answer to the text. -/
def Note.Tells : Note → (text answer : String) → Prop
  | reply line words, text, answer => text = line ∧ answer = words
  | farewell, text, answer => Request.isLogout text = true ∧ answer = Request.loggedOut
  | refused, _, answer => answer = ChatError.alreadyLoggedInText

/-- A step of a connection. -/
structure Deed where
  before : Connection
  events : List Event
  after : Connection

namespace Deed

def note? (x : Deed) : Option Note :=
  match x.before.phase, x.after.phase with
  | .dispatching _ line, .replying _ reply _ => some (.reply line reply)
  | .serving _, .replying _ _ _ => some .farewell
  | .binding _, .refusing _ => some .refused
  | _, _ => none

theorem note?_of_replying {x : Deed} {identity reply : String} {logout : Bool}
    (h : x.before.phase = .replying identity reply logout) : x.note? = none := by
  simp [note?, h]

/-- The lines that were put out, if that was not in a handshake. -/
def spoken (x : Deed) : List Bytes :=
  match x.before.phase with
  | .handshake _ => []
  | _ => said x.events

end Deed

section

variable (xs ys : List Deed)

def events : List Event := xs.flatMap Deed.events

def notes : List Note := xs.filterMap Deed.note?

def spoken : List Bytes := xs.flatMap Deed.spoken

@[simp] theorem events_nil : events [] = [] := rfl

@[simp] theorem events_cons (x : Deed) : events (x :: xs) = x.events ++ events xs := rfl

@[simp] theorem events_append : events (xs ++ ys) = events xs ++ events ys := List.flatMap_append

@[simp] theorem notes_nil : notes [] = [] := rfl

@[simp] theorem notes_append : notes (xs ++ ys) = notes xs ++ notes ys := List.filterMap_append

@[simp] theorem spoken_nil : spoken [] = [] := rfl

@[simp] theorem spoken_cons (x : Deed) : spoken (x :: xs) = x.spoken ++ spoken xs := rfl

@[simp] theorem spoken_append : spoken (xs ++ ys) = spoken xs ++ spoken ys := List.flatMap_append

variable {xs}

theorem notes_cons_none {x : Deed} (h : x.note? = none) : notes (x :: xs) = notes xs :=
  List.filterMap_cons_none h

theorem notes_cons_some {x : Deed} {n : Note} (h : x.note? = some n) :
    notes (x :: xs) = n :: notes xs :=
  List.filterMap_cons_some h

end

variable [CipherSuite] {store : KeyStore} {limit : Duration}

/-- The deeds of a connection, and what has happened since. Only a handshake is more than one event,
so a connection is between two steps or in a handshake. -/
inductive Serves (store : KeyStore) (limit : Duration) :
    Connection → List Deed → List Event → Connection → Prop
  | rest (c : Connection) : Serves store limit c [] [] c
  | partway {c : Connection} {again : Bool} {es : List Event} : c.phase = .handshake again →
      (c.step store limit).Begins es → Serves store limit c [] es c
  | step {c d c' : Connection} {es cur : List Event} {change : Change} {xs : List Deed} (hub : Hub) :
      (c.step store limit).Runs es change → (change hub).2 = d → Serves store limit d xs cur c' →
        Serves store limit c (⟨c, es, d⟩ :: xs) cur c'

variable {c c' d : Connection} {xs : List Deed} {es cur : List Event} {change : Change}
  {s session : Session} {cipher : SessionCipher} {identity line reply : String} {logout : Bool}
  {cause : ChatError}

/-! ## A connection that gives up -/

def Phase.IsOver : Phase → Prop
  | .releasing _ | .closing _ | .ended => True
  | _ => False

theorem step_over (h : (c.step store limit).Runs es change) (hp : c.phase.IsOver) (hub : Hub) :
    said es = [] ∧ heard es = [] ∧ (change hub).2.phase.IsOver := by
  cases hc : c.phase with
  | releasing cause =>
    simp only [step, hc] at h
    obtain ⟨rfl, rfl⟩ := runs_done_iff.1 h
    exact ⟨rfl, rfl, trivial⟩
  | closing cause =>
    simp only [step, hc] at h
    obtain ⟨session, h₁, rfl⟩ := runs_bind_done_iff.1 h
    unfold Session.close at h₁
    split at h₁
    next =>
      obtain ⟨rfl, rfl⟩ := runs_done_iff.1 h₁
      exact ⟨rfl, rfl, trivial⟩
    next =>
      obtain ⟨_, rfl, h₂⟩ := runs_close_iff.1 h₁
      obtain ⟨rfl, rfl⟩ := runs_done_iff.1 h₂
      exact ⟨rfl, rfl, trivial⟩
  | ended =>
    simp only [step, hc] at h
    obtain ⟨rfl, rfl⟩ := runs_done_iff.1 h
    exact ⟨rfl, rfl, by rw [hc]; trivial⟩
  | _ => rw [hc] at hp; exact hp.elim

/-- A connection that gives up says nothing, hears nothing and decides nothing. -/
theorem Serves.of_over (h : Serves store limit c xs cur c') (hp : c.phase.IsOver) :
    said (events xs ++ cur) = [] ∧ heard (events xs ++ cur) = [] ∧ notes xs = [] ∧
      c'.phase.IsOver := by
  induction h with
  | rest c => exact ⟨rfl, rfl, rfl, hp⟩
  | partway hc =>
    rw [hc] at hp
    exact hp.elim
  | @step c d c' es cur change xs hub hr hd _ ih =>
    obtain ⟨hsaid, hheard, hd'⟩ := step_over hr hp hub
    rw [hd] at hd'
    obtain ⟨hsaid', hheard', hnotes, hc'⟩ := ih hd'
    have hnote : Deed.note? ⟨c, es, d⟩ = none := by
      cases hc : c.phase <;> simp_all [Deed.note?, Phase.IsOver]
    refine ⟨?_, ?_, by rw [notes_cons_none hnote, hnotes], hc'⟩
    · rw [events_cons, List.append_assoc, said_append, hsaid, hsaid']
      rfl
    · rw [events_cons, List.append_assoc, heard_append, hheard, hheard']
      rfl

/-! ## The steps that put out a line, or wait for one -/

theorem step_serving (hp : c.phase = .serving identity)
    (hc : c.session = s.enter ⟨cipher, [.base64], identity⟩)
    (h : (c.step store limit).Runs es change) (hub : Hub) :
    ∃ a, es = [.received none a] ∧ ((change hub).2.phase.IsOver ∨
      ∃ question line, a = .ok question ∧
        Enciphers cipher.secrets cipher.role.other cipher.received (Utf8.encode line) question ∧
        (change hub).2 = { c with
          session := s.enter ⟨{ cipher with received := cipher.received + 1 }, [.base64], identity⟩
          phase := if Request.isLogout line then .replying identity Request.loggedOut true
            else .dispatching identity line }) := by
  simp only [step, hp] at h
  obtain ⟨⟨o, session⟩, h₁, rfl⟩ := runs_bind_done_iff.1 h
  rw [hc] at h₁
  obtain ⟨a, rfl, ⟨question, payload, rfl, hq, rfl, rfl⟩ | ⟨⟨e, rfl⟩, rfl, -⟩⟩ :=
    Session.runs_receive_cases h₁
  · refine ⟨_, rfl, ?_⟩
    cases ht : Channel.textOf payload with
    | error e =>
      left
      simp only [Except.bind, ht]
      trivial
    | ok line =>
      right
      obtain rfl := Channel.textOf_eq_ok_iff.1 ht
      refine ⟨question, line, rfl, hq, ?_⟩
      simp only [Except.bind, ht]
      rfl
  · exact ⟨a, rfl, .inl trivial⟩

theorem step_replying (hs : CipherSuite.Lawful) (hp : c.phase = .replying identity reply logout)
    (hc : c.session = s.enter ⟨cipher, [.base64], identity⟩)
    (h : (c.step store limit).Runs es change) (hub : Hub) :
    (said es = [] ∧ heard es = [] ∧ (change hub).2.phase.IsOver) ∨
    ∃ answer, es = [.sent answer (.ok ())] ∧
      Enciphers cipher.secrets cipher.role cipher.sent (Utf8.encode reply) answer ∧
      (change hub).2 = { c with
        session := s.enter ⟨{ cipher with sent := cipher.sent + 1 }, [.base64], identity⟩
        phase := if logout then .unbinding identity else .serving identity } := by
  simp only [step, hp] at h
  obtain ⟨⟨o, session⟩, h₁, rfl⟩ := runs_bind_done_iff.1 h
  rw [hc] at h₁
  rcases Session.runs_send_cases hs h₁ with ⟨rfl, ⟨e, rfl⟩, rfl⟩ | ⟨answer, rfl, ha, rfl⟩
  · exact .inl ⟨rfl, rfl, trivial⟩
  · cases o with
    | error e => exact .inl ⟨rfl, rfl, trivial⟩
    | ok u => exact .inr ⟨answer, rfl, ha, rfl⟩

theorem step_refusing (hs : CipherSuite.Lawful) (hp : c.phase = .refusing cause)
    (hc : c.session = s.enter ⟨cipher, [.base64], identity⟩)
    (h : (c.step store limit).Runs es change) (hub : Hub) :
    heard es = [] ∧ (change hub).2.phase.IsOver ∧ (said es = [] ∨
      ∃ answer, said es = [answer] ∧ Enciphers cipher.secrets cipher.role cipher.sent
        (Utf8.encode ChatError.alreadyLoggedInText) answer) := by
  simp only [step, hp] at h
  obtain ⟨⟨o, session⟩, h₁, rfl⟩ := runs_bind_done_iff.1 h
  rw [hc] at h₁
  rcases Session.runs_send_cases hs h₁ with ⟨rfl, ⟨e, rfl⟩, rfl⟩ | ⟨answer, rfl, ha, rfl⟩
  · exact ⟨rfl, trivial, .inl rfl⟩
  · cases o with
    | error e => exact ⟨rfl, trivial, .inl rfl⟩
    | ok u => exact ⟨rfl, trivial, .inr ⟨answer, rfl, ha⟩⟩

/-! ## Questions and answers -/

/-- Somebody who is turned away hears so at most, and nothing else. -/
theorem Serves.of_refusing (hs : CipherSuite.Lawful) (h : Serves store limit c xs cur c')
    (hp : c.phase = .refusing cause) (hc : c.session = s.enter ⟨cipher, [.base64], identity⟩) :
    heard (events xs ++ cur) = [] ∧ notes xs = [] ∧ (said (events xs ++ cur) = [] ∨
      ∃ answer, said (events xs ++ cur) = [answer] ∧
        Enciphers cipher.secrets cipher.role cipher.sent
          (Utf8.encode ChatError.alreadyLoggedInText) answer) := by
  cases h with
  | rest => exact ⟨rfl, rfl, .inl rfl⟩
  | partway hp' => simp [hp] at hp'
  | @step _ d _ es _ change xs hub hr hd hrest =>
    obtain ⟨hheard, hover, hsaid⟩ := step_refusing hs hp hc hr hub
    rw [hd] at hover
    obtain ⟨hsaid', hheard', hnotes, -⟩ := hrest.of_over hover
    have hnote : Deed.note? ⟨c, es, d⟩ = none := by simp [Deed.note?, hp]
    rw [notes_cons_none hnote, events_cons, List.append_assoc, said_append, heard_append, hsaid',
      hheard', hheard, hnotes]
    exact ⟨rfl, rfl, by simpa using hsaid⟩

/-- Nothing more is said, or the reply is said next. -/
theorem Serves.of_replying (hs : CipherSuite.Lawful) (h : Serves store limit c xs cur c')
    (hp : c.phase = .replying identity reply logout)
    (hc : c.session = s.enter ⟨cipher, [.base64], identity⟩) :
    said (events xs ++ cur) = [] ∨ ∃ answer d xs',
      xs = ⟨c, [.sent answer (.ok ())], d⟩ :: xs' ∧ Serves store limit d xs' cur c' ∧
      Enciphers cipher.secrets cipher.role cipher.sent (Utf8.encode reply) answer ∧
      d = { c with
        session := s.enter ⟨{ cipher with sent := cipher.sent + 1 }, [.base64], identity⟩
        phase := if logout then .unbinding identity else .serving identity } := by
  cases h with
  | rest => exact .inl rfl
  | partway hp' => simp [hp] at hp'
  | @step _ d _ es _ change xs hub hr hd hrest =>
    rcases step_replying hs hp hc hr hub with ⟨hsaid, -, hover⟩ | ⟨answer, rfl, ha, hd'⟩
    · left
      rw [hd] at hover
      rw [events_cons, List.append_assoc, said_append, hsaid, (hrest.of_over hover).1]
      rfl
    · exact .inr ⟨answer, d, xs, rfl, hrest, ha, by rw [← hd, hd']⟩

/-- A question is taken and answered: the deeds from the one to the other. -/
structure Round (s : Session) (cipher : SessionCipher) (identity : String) (xs : List Deed)
    (d : Connection) (question answer : Bytes) (line reply : String) : Prop where
  heard : heard (events xs) = [question]
  said : said (events xs) = [answer]
  spoken : answer ∈ spoken xs
  note : ∃ note, notes xs = [note] ∧ note.Tells line reply
  question : Enciphers cipher.secrets cipher.role.other cipher.received (Utf8.encode line) question
  answer : Enciphers cipher.secrets cipher.role cipher.sent (Utf8.encode reply) answer
  session : d.session = s.enter ⟨{ cipher with
    sent := cipher.sent + 1, received := cipher.received + 1 }, [.base64], identity⟩
  phase : d.phase = if Request.isLogout line then .unbinding identity else .serving identity

/-- **A connection that serves and says anything takes a question and answers it first.** -/
theorem Serves.round (hs : CipherSuite.Lawful) (h : Serves store limit c xs cur c')
    (hp : c.phase = .serving identity) (hc : c.session = s.enter ⟨cipher, [.base64], identity⟩) :
    said (events xs ++ cur) = [] ∨ ∃ pre xs' d question answer line reply,
      xs = pre ++ xs' ∧ Serves store limit d xs' cur c' ∧
      Round s cipher identity pre d question answer line reply := by
  cases h with
  | rest => exact .inl rfl
  | partway hp' => simp [hp] at hp'
  | @step _ d _ es _ change xs hub hr hd hrest =>
    obtain ⟨a, rfl, hover | ⟨question, line, rfl, hq, hd'⟩⟩ := step_serving hp hc hr hub
    · left
      rw [hd] at hover
      exact (hrest.of_over hover).1
    rw [hd] at hd'
    cases hl : Request.isLogout line with
    | true =>
      rw [hl, if_pos rfl] at hd'
      have hnote : Deed.note? ⟨c, [.received none (.ok question)], d⟩ = some .farewell := by
        simp [Deed.note?, hp, hd']
      rcases hrest.of_replying hs (by rw [hd']) (by rw [hd']) with
        hsaid | ⟨answer, e, xs', rfl, hrest', ha, rfl⟩
      · exact .inl hsaid
      refine .inr ⟨[_, _], xs', _, question, answer, line, Request.loggedOut, rfl, hrest',
        rfl, rfl, by simp [spoken, Deed.spoken, hd'], ⟨.farewell, ?_, hl, rfl⟩, hq, ha, ?_, ?_⟩
      · rw [notes_cons_some hnote, notes_cons_none (Deed.note?_of_replying (by rw [hd'])), notes_nil]
      · rfl
      · rw [hl]
    | false =>
      rw [hl, if_neg (by simp)] at hd'
      have hnote : Deed.note? ⟨c, [.received none (.ok question)], d⟩ = none := by
        simp [Deed.note?, hp, hd']
      cases hrest with
      | rest => exact .inl rfl
      | partway hp' => simp [hd'] at hp'
      | @step _ e _ es _ change xs hub' hr' he hrest' =>
        -- the dispatcher is asked in a step of its own
        have hphase : d.phase = .dispatching identity line := by rw [hd']
        simp only [Connection.step, hphase] at hr'
        obtain ⟨rfl, rfl⟩ := runs_done_iff.1 hr'
        replace he : { d with
          phase := .replying identity (Request.replyTo hub' identity line) false } = e := he
        rcases hrest'.of_replying hs (by rw [← he]) (by rw [← he, hd']) with
          hsaid | ⟨answer, f, xs', rfl, hrest'', ha, rfl⟩
        · exact .inl hsaid
        have hnote' : Deed.note? ⟨d, [], e⟩ =
            some (.reply line (Request.replyTo hub' identity line)) := by
          simp only [Deed.note?, hphase, ← he]
        refine .inr ⟨[_, _, _], xs', _, question, answer, line,
          Request.replyTo hub' identity line, rfl, hrest'', rfl, rfl,
          by simp [spoken, Deed.spoken, ← he], ⟨.reply line _, ?_, rfl, rfl⟩, hq, ha, ?_, ?_⟩
        · rw [notes_cons_none hnote, notes_cons_some hnote',
            notes_cons_none (Deed.note?_of_replying (by rw [← he])), notes_nil]
        · rfl
        · rw [hl]

/-! ## Handshakes -/

/-- A handshake comes to what its dialogue comes to. -/
theorem step_handshake {own : PrivateKey} {again : Bool} (hp : c.phase = .handshake again)
    (hc : c.session = .new [.base64] own none) (h : (c.step store limit).Runs es change) :
    ∃ r, (Handshake.respond ⟨own, none⟩ [.base64] store (if again then none else some limit)
      limit).Runs es r ∧ ∀ hub, ((∃ e, r = .error e) ∧ (change hub).2.phase.IsOver) ∨
        ∃ secured, r = .ok secured ∧ (change hub).2 = { c with
          session := (Session.new [.base64] own none).enter secured
          phase := .binding secured.identity } := by
  simp only [step, hp] at h
  obtain ⟨⟨o, session⟩, h₁, rfl⟩ := runs_bind_done_iff.1 h
  rw [hc] at h₁
  obtain ⟨es₁, es₂, r, rfl, h₂, h₃⟩ := runs_bind_iff.1 h₁
  cases r with
  | error e =>
    obtain ⟨rfl, heq⟩ := runs_done_iff.1 h₃
    obtain ⟨rfl, rfl⟩ := Prod.mk.inj heq
    exact ⟨.error e, by rwa [List.append_nil], fun hub => .inl ⟨⟨e, rfl⟩, trivial⟩⟩
  | ok secured =>
    obtain ⟨rfl, heq⟩ := runs_done_iff.1 h₃
    obtain ⟨rfl, rfl⟩ := Prod.mk.inj heq
    exact ⟨.ok secured, by rwa [List.append_nil], fun hub => .inr ⟨secured, rfl, rfl⟩⟩

/-- A greeting is answered: the line that is heard, and the line that is said to it. -/
structure Welcome (own : PrivateKey) (store : KeyStore) (hello line : Bytes) (identity : String)
    (ca cb : Challenge) (key : PublicKey) (secrets : Secrets) : Prop where
  isValid : Principal.IsValid identity
  introduces : Handshake.Introduces own hello identity ca
  find : store.find identity = .ok key
  discloses : Handshake.Discloses key line ca cb secrets

omit [CipherSuite] in
theorem said_of_written (h : written es = []) : said es = [] := by
  induction es with
  | nil => rfl
  | cons e es ih =>
    cases e with
    | sent line o => simp at h
    | received limit o => exact ih h
    | closed => exact ih h
    | filled n o => exact ih h

/-- A responder whose line is taken awaits the confirmation, and logs in whoever sends it. -/
theorem respond_says {own : PrivateKey} {first : Option Duration} {r : Outcome Handshake.Secured}
    (h : (Handshake.respond ⟨own, none⟩ [.base64] store first limit).Runs es r) :
    (said es = [] ∧ ∃ e, r = .error e) ∨
    ∃ hello line identity ca cb key secrets pre o tail,
      Welcome own store hello line identity ca cb key secrets ∧
      es = pre ++ .sent line (.ok ()) :: .received (some limit) o :: tail ∧
      said pre = [] ∧ heard pre = [hello] ∧ said tail = [] ∧
      (∀ secured, r = .ok secured → tail = [] ∧
        secured = ⟨⟨secrets, .responder, 0, 1⟩, [.base64], identity⟩ ∧
        ∃ confirm, o = .ok confirm ∧ Handshake.Confirms secrets confirm cb) ∧
      ∀ e confirm, r = .error e → o = .ok confirm → ¬Handshake.Confirms secrets confirm cb := by
  rcases Handshake.respond_stages h with ⟨hw, he⟩ | ⟨hello, identity, ca, key, cb, secrets, answers,
    line, o, rest, tail, rfl, hi, hh, hf, hl, htail, hok, ⟨rfl, e, rfl, rfl⟩ | ⟨rfl, h₁⟩⟩
  · exact .inl ⟨said_of_written hw, he⟩
  · refine .inl ⟨?_, e, rfl⟩
    simp [said_of_written htail]
  · obtain ⟨o, rfl, hsec⟩ := Handshake.runs_awaitConfirmation (by rfl) (by rfl) h₁
    refine .inr ⟨hello, line, identity, ca, cb, key, secrets,
      .received first (.ok hello) :: .filled 32 (some cb.block) ::
        .filled 32 (some secrets.key.block) :: .filled 16 (some secrets.iv.block) :: draws answers,
      o, tail, ⟨hi, hh, hf, hl⟩, by simp, by simp, by simp, said_of_written htail, ?_, ?_⟩
    · intro secured hr
      obtain ⟨hsecured, hconfirm⟩ := hsec secured hr
      exact ⟨hok secured hr, hsecured, hconfirm⟩
    · rintro e confirm rfl rfl hc
      -- whoever confirms the challenge is logged in
      cases h₁.unique (Handshake.runs_awaitConfirmation_of_confirms hc)

/-- **A connection that says anything in a handshake answers a greeting.** Then it says nothing more,
or the answer is confirmed and somebody has logged in. A confirmation that comes does its work. -/
theorem Serves.of_handshake {own : PrivateKey} {again : Bool} (h : Serves store limit c xs cur c')
    (hp : c.phase = .handshake again) (hc : c.session = .new [.base64] own none) :
    said (events xs ++ cur) = [] ∨ ∃ hello line identity ca cb key secrets,
      Welcome own store hello line identity ca cb key secrets ∧
      ((said (events xs ++ cur) = [line] ∧ (∃ rest, heard (events xs ++ cur) = hello :: rest) ∧
        (cur = [] → Sound (events xs ++ cur) → ∀ confirm rest,
          heard (events xs ++ cur) = hello :: confirm :: rest →
            ¬Handshake.Confirms secrets confirm cb)) ∨
      ∃ confirm es d xs', xs = ⟨c, es, d⟩ :: xs' ∧ Serves store limit d xs' cur c' ∧
        heard es = [hello, confirm] ∧ said es = [line] ∧ Deed.note? ⟨c, es, d⟩ = none ∧
        Deed.spoken ⟨c, es, d⟩ = [] ∧ Handshake.Confirms secrets confirm cb ∧
        d.session = (Session.new [.base64] own none).enter
          ⟨⟨secrets, .responder, 0, 1⟩, [.base64], identity⟩ ∧ d.phase = .binding identity) := by
  cases h with
  | rest => exact .inl rfl
  | @partway _ _ cur _ hb =>
    obtain ⟨rest, change, hr⟩ := hb
    obtain ⟨r, hr, -⟩ := step_handshake hp hc hr
    rcases respond_says hr with ⟨hsaid, -⟩ | ⟨hello, line, identity, ca, cb, key, secrets, pre, o,
      tail, hw, heq, hpre, hheard, htail, -⟩
    · rw [said_append] at hsaid
      exact .inl (List.append_eq_nil_iff.1 hsaid).1
    rw [events_nil, List.nil_append]
    -- what has happened ends before the line is said, or behind it
    rcases List.append_eq_append_iff.1 heq with ⟨mid, rfl, -⟩ | ⟨mid, rfl, hmid⟩
    · rw [said_append] at hpre
      exact .inl (List.append_eq_nil_iff.1 hpre).1
    cases mid with
    | nil =>
      rw [List.append_nil]
      exact .inl hpre
    | cons e mid =>
      obtain ⟨rfl, hmid'⟩ := List.cons.inj hmid
      have hsaid : said mid = [] := by
        have h : said _ = said (mid ++ rest) := congrArg said hmid'
        rw [said_append, said_received, htail] at h
        exact (List.append_eq_nil_iff.1 h.symm).1
      refine .inr ⟨hello, line, identity, ca, cb, key, secrets, hw, .inl ⟨?_, ?_, ?_⟩⟩
      · rw [said_append, hpre, said_sent_ok, hsaid]
        rfl
      · exact ⟨heard mid, by rw [heard_append, hheard, heard_sent]; rfl⟩
      · intro hcur
        exact absurd hcur (by simp)
  | @step _ d _ es _ change xs hub hr hd hrest =>
    obtain ⟨r, hr, hchange⟩ := step_handshake hp hc hr
    rcases respond_says hr with ⟨hsaid, e, rfl⟩ | ⟨hello, line, identity, ca, cb, key, secrets, pre, o,
      tail, hw, rfl, hpre, hheard, htail, hok, herror⟩
    · left
      rcases hchange hub with ⟨-, hover⟩ | ⟨_, he, -⟩
      · rw [hd] at hover
        rw [events_cons, List.append_assoc, said_append, hsaid, (hrest.of_over hover).1]
        rfl
      · cases he
    right
    refine ⟨hello, line, identity, ca, cb, key, secrets, hw, ?_⟩
    rcases hchange hub with ⟨⟨e, rfl⟩, hover⟩ | ⟨secured, rfl, hd'⟩
    · left
      rw [hd] at hover
      obtain ⟨hsaid', hheard', -⟩ := hrest.of_over hover
      refine ⟨?_, ?_, ?_⟩
      · rw [events_cons, List.append_assoc, said_append, hsaid', said_append, hpre, said_sent_ok,
          said_received, htail]
        rfl
      · refine ⟨heard (.received (some limit) o :: tail), ?_⟩
        rw [events_cons, List.append_assoc, heard_append, hheard', heard_append, hheard,
          List.append_nil]
        rfl
      · intro _ hsound confirm rest hheard''
        cases o with
        | error e' => exact absurd trivial (hsound (.received (some limit) (.error e')) (by simp))
        | ok confirm' =>
          rw [events_cons, List.append_assoc, heard_append, hheard', heard_append, hheard, heard_sent,
            heard_received_ok] at hheard''
          obtain ⟨rfl, -⟩ := List.cons.inj (List.cons.inj hheard'').2
          exact herror e _ rfl rfl
    · right
      obtain ⟨rfl, rfl, confirm, rfl, hconfirm⟩ := hok secured rfl
      refine ⟨confirm, _, d, xs, rfl, hrest, ?_, ?_, ?_, ?_, hconfirm, ?_, ?_⟩
      · rw [heard_append, hheard]
        rfl
      · rw [said_append, hpre]
        rfl
      · simp [Deed.note?, hp]
      · simp [Deed.spoken, hp]
      · rw [← hd, hd']
      · rw [← hd, hd']

/-! ## Between handshakes and questions -/

/-- Who has logged in is bound or turned away. -/
theorem Serves.of_binding (h : Serves store limit c xs cur c') (hp : c.phase = .binding identity) :
    (xs = [] ∧ cur = [] ∧ c' = c) ∨ ∃ d xs', xs = ⟨c, [], d⟩ :: xs' ∧
      Serves store limit d xs' cur c' ∧ d.session = c.session ∧
      (d.phase = .serving identity ∧ Deed.note? ⟨c, [], d⟩ = none ∨
        (∃ cause, d.phase = .refusing cause) ∧ Deed.note? ⟨c, [], d⟩ = some .refused) := by
  cases h with
  | rest => exact .inl ⟨rfl, rfl, rfl⟩
  | partway hp' => simp [hp] at hp'
  | @step _ d _ es _ change xs hub hr hd hrest =>
    simp only [Connection.step, hp] at hr
    obtain ⟨rfl, rfl⟩ := runs_done_iff.1 hr
    refine .inr ⟨d, xs, rfl, hrest, ?_⟩
    rcases hb : hub.table.bind identity c.id with ⟨cause | _, table⟩
    · simp only [Connection.bind, hb] at hd
      subst hd
      exact ⟨rfl, .inr ⟨⟨cause, rfl⟩, by simp [Deed.note?, hp]⟩⟩
    · simp only [Connection.bind, hb] at hd
      subst hd
      exact ⟨rfl, .inl ⟨rfl, by simp [Deed.note?, hp]⟩⟩

/-- The phases after a logout, up to the next handshake. -/
def Phase.IsLeaving : Phase → Prop
  | .unbinding _ | .loggingOut => True
  | _ => False

/-- A logout brings the session back to where it began, and nothing happens meanwhile. -/
theorem Serves.of_leaving (h : Serves store limit c xs cur c') (hp : c.phase.IsLeaving)
    (hstage : s.stage = .unauthenticated [.base64])
    (hc : c.session = s.enter ⟨cipher, [.base64], identity⟩) :
    (events xs = [] ∧ cur = [] ∧ notes xs = [] ∧ c'.phase.IsLeaving) ∨ ∃ pre d xs', xs = pre ++ xs' ∧
      Serves store limit d xs' cur c' ∧ events pre = [] ∧ notes pre = [] ∧
      d.session = s ∧ d.phase = .handshake true := by
  induction h with
  | rest c => exact .inl ⟨rfl, rfl, rfl, hp⟩
  | partway hp' =>
    rw [hp'] at hp
    exact hp.elim
  | @step c d c' es cur change xs hub hr hd hrest ih =>
    cases hphase : c.phase with
    | unbinding name =>
      simp only [Connection.step, hphase] at hr
      obtain ⟨rfl, rfl⟩ := runs_done_iff.1 hr
      obtain rfl : { c with phase := .loggingOut } = d := hd
      have hnote : Deed.note? ⟨c, [], { c with phase := .loggingOut }⟩ = none := by
        simp [Deed.note?, hphase]
      rcases ih trivial hc with ⟨hevents, hcur, hnotes, hover⟩ |
        ⟨pre, d, xs', rfl, hrest', hevents, hnotes, hd, hp'⟩
      · exact .inl ⟨by rw [events_cons, hevents]; rfl, hcur, by rw [notes_cons_none hnote, hnotes],
          hover⟩
      · exact .inr ⟨_ :: pre, d, xs', rfl, hrest', by rw [events_cons, hevents]; rfl,
          by rw [notes_cons_none hnote, hnotes], hd, hp'⟩
    | loggingOut =>
      simp only [Connection.step, hphase] at hr
      obtain ⟨rfl, rfl⟩ := runs_done_iff.1 hr
      have hlogout : c.session.logout = (.ok identity, s) := by
        rw [hc, Session.logout, Session.enter]
        dsimp only
        rw [← hstage]
      simp only [Connection.logout, hlogout] at hd
      subst hd
      refine .inr ⟨[_], _, xs, rfl, hrest, rfl, ?_, rfl, rfl⟩
      exact notes_cons_none (by simp [Deed.note?, hphase])
    | _ => rw [hphase] at hp; exact hp.elim

/-- Nobody is logged in, or is not for long. -/
def Vacant (s : Session) (c : Connection) : Prop :=
  (c.session = s ∧ ∃ again, c.phase = .handshake again) ∨
    c.phase.IsLeaving ∧ ∃ cipher identity, c.session = s.enter ⟨cipher, [.base64], identity⟩

theorem Serves.of_vacant (h : Serves store limit c xs cur c')
    (hstage : s.stage = .unauthenticated [.base64]) (hv : c.Vacant s) :
    (events xs = [] ∧ cur = [] ∧ notes xs = [] ∧ c'.phase.IsLeaving) ∨ ∃ pre d xs', xs = pre ++ xs' ∧
      Serves store limit d xs' cur c' ∧ events pre = [] ∧ notes pre = [] ∧
      d.session = s ∧ ∃ again, d.phase = .handshake again := by
  rcases hv with ⟨hc, again, hp⟩ | ⟨hp, cipher, identity, hc⟩
  · exact .inr ⟨[], c, xs, rfl, h, rfl, rfl, hc, again, hp⟩
  · rcases h.of_leaving hp hstage hc with hstop | ⟨pre, d, xs', rfl, h', hevents, hnotes, hd, hp'⟩
    · exact .inl hstop
    · exact .inr ⟨pre, d, xs', rfl, h', hevents, hnotes, hd, true, hp'⟩

/-- While nobody is logged in, a line that is no greeting is answered by silence. -/
theorem Serves.mute {own : PrivateKey} {q : Bytes} {lines : List Bytes}
    (h : Serves store limit c xs cur c') (hv : c.Vacant (.new [.base64] own none))
    (hq : ∀ identity ca, ¬Handshake.Introduces own q identity ca)
    (hlines : heard (events xs ++ cur) <+: q :: lines) : said (events xs ++ cur) = [] := by
  rcases h.of_vacant rfl hv with ⟨hevents, rfl, -⟩ |
    ⟨pre, d, xs', rfl, h', hevents, -, hd, again, hp⟩
  · rw [hevents]
    rfl
  rw [events_append, hevents, List.nil_append] at hlines ⊢
  rcases h'.of_handshake hp hd with hsaid | ⟨hello, line, identity, ca, cb, key, secrets, hw, hgo⟩
  · exact hsaid
  -- the greeting is the first line that was heard
  have hfirst : ∃ rest, heard (events xs' ++ cur) = hello :: rest := by
    rcases hgo with ⟨-, hheard, -⟩ | ⟨confirm, es, e, xs'', rfl, -, hheard, -⟩
    · exact hheard
    · rw [events_cons, List.append_assoc, heard_append, hheard]
      exact ⟨_, rfl⟩
  obtain ⟨rest, hheard⟩ := hfirst
  rw [hheard, List.cons_prefix_cons] at hlines
  exact absurd (hlines.1 ▸ hw.introduces) (hq identity ca)

/-! ## A connection that waits -/

/-- A connection that waits for a line, and neither hears one nor is told that none will come, does
nothing. -/
theorem Serves.still (h : Serves store limit c xs cur c') (hw : (∃ own again,
      c.phase = .handshake again ∧ c.session = .new [.base64] own none) ∨
      ∃ cipher identity, c.phase = .serving identity ∧
        c.session = s.enter ⟨cipher, [.base64], identity⟩)
    (hheard : heard (events xs) = []) (hsound : Sound (events xs)) : xs = [] ∧ c' = c := by
  cases h with
  | rest => exact ⟨rfl, rfl⟩
  | partway => exact ⟨rfl, rfl⟩
  | @step _ d _ es _ change xs hub hr =>
    exfalso
    obtain ⟨o, wait, rest, rfl⟩ : ∃ o wait rest, es = .received wait o :: rest := by
      rcases hw with ⟨own, again, hp, hc⟩ | ⟨cipher, identity, hp, hc⟩
      · obtain ⟨r, hr, -⟩ := step_handshake hp hc hr
        obtain ⟨o, rest, rfl⟩ := Handshake.respond_waits hr
        exact ⟨o, _, rest, rfl⟩
      · obtain ⟨a, rfl, -⟩ := step_serving hp hc hr hub
        exact ⟨a, none, [], rfl⟩
    rw [events_cons, List.cons_append] at hheard hsound
    cases o with
    | error e => exact (sound_cons.1 hsound).1 trivial
    | ok line => simp at hheard

/-! ## The next answer -/

theorem Round.cons {x : Deed} {question answer : Bytes}
    (h : Round s cipher identity xs d question answer line reply) (hx : x.events = [])
    (hnote : x.note? = none) :
    Round s cipher identity (x :: xs) d question answer line reply where
  heard := by rw [events_cons, hx, List.nil_append, h.heard]
  said := by rw [events_cons, hx, List.nil_append, h.said]
  spoken := List.mem_append_right _ h.spoken
  note := by rw [notes_cons_none hnote]; exact h.note
  question := h.question
  answer := h.answer
  session := h.session
  phase := h.phase

/-- **The next line of a connection in a session** is the answer to a question, or the only one, which
says that somebody else is logged in. -/
theorem Serves.next_answer (hs : CipherSuite.Lawful) (h : Serves store limit c xs cur c')
    (hp : c.phase = .serving identity ∨ c.phase = .binding identity)
    (hc : c.session = s.enter ⟨cipher, [.base64], identity⟩) :
    said (events xs ++ cur) = [] ∨
    (∃ pre xs' d question answer line reply, xs = pre ++ xs' ∧ Serves store limit d xs' cur c' ∧
      Round s cipher identity pre d question answer line reply) ∨
    ∃ answer, said (events xs ++ cur) = [answer] ∧ notes xs = [.refused] ∧
      Enciphers cipher.secrets cipher.role cipher.sent (Utf8.encode ChatError.alreadyLoggedInText)
        answer := by
  rcases hp with hp | hp
  · exact (h.round hs hp hc).imp_right .inl
  rcases h.of_binding hp with ⟨rfl, rfl, -⟩ |
    ⟨d, xs', rfl, h', hd, ⟨hp', hnote⟩ | ⟨⟨cause, hp'⟩, hnote⟩⟩
  · exact .inl rfl
  · rcases h'.round hs hp' (hd.trans hc) with hsaid |
      ⟨pre, xs'', e, question, answer, line, reply, rfl, h'', hround⟩
    · exact .inl hsaid
    · exact .inr (.inl ⟨_ :: pre, xs'', e, question, answer, line, reply, rfl, h'',
        hround.cons rfl hnote⟩)
  · obtain ⟨-, hnotes, hsaid | ⟨answer, hsaid, ha⟩⟩ := h'.of_refusing hs hp' (hd.trans hc)
    · exact .inl hsaid
    · exact .inr (.inr ⟨answer, hsaid, by rw [notes_cons_some hnote, hnotes], ha⟩)

/-! ## Such runs are possible -/

variable (store limit)

variable {store limit} in
theorem Serves.append {ys : List Deed} (h : Serves store limit c xs [] d)
    (h' : Serves store limit d ys cur c') : Serves store limit c (xs ++ ys) cur c' := by
  generalize hes : ([] : List Event) = es at h
  induction h with
  | rest c => exact h'
  | partway _ _ => exact h'
  | step hub hr hd _ ih => exact .step hub hr hd (ih h' hes)

variable {store limit} in
/-- A single step. -/
theorem serves_one (hub : Hub) (hr : (c.step store limit).Runs es change)
    (hd : (change hub).2 = d) : Serves store limit c [⟨c, es, d⟩] [] d :=
  .step hub hr hd (.rest d)

theorem serves_handshake {own : PrivateKey} {secured : Handshake.Secured} {again : Bool}
    (hp : c.phase = .handshake again) (hc : c.session = .new [.base64] own none)
    (h : (Handshake.respond ⟨own, none⟩ [.base64] store (if again then none else some limit)
      limit).Runs es (.ok secured)) (hub : Hub) :
    Serves store limit c [⟨c, es, { c with
      session := (Session.new [.base64] own none).enter secured
      phase := .binding secured.identity }⟩] [] { c with
        session := (Session.new [.base64] own none).enter secured
        phase := .binding secured.identity } := by
  have hrespond : (c.session.respond store (if again then none else some limit) limit).Runs es
      (.ok secured.identity, (Session.new [.base64] own none).enter secured) := by
    rw [hc]
    exact runs_bind_iff.2 ⟨es, [], .ok secured, (List.append_nil es).symm, h, .done _⟩
  have hr : (c.step store limit).Runs es (loggedIn { c with
      session := (Session.new [.base64] own none).enter secured } (.ok secured.identity)) := by
    simp only [step, hp]
    exact runs_bind_done_iff.2 ⟨_, hrespond, rfl⟩
  exact serves_one hub hr rfl

theorem serves_binding (hp : c.phase = .binding identity) (hub : Hub) :
    Serves store limit c [⟨c, [], (c.bind identity hub).2⟩] [] (c.bind identity hub).2 := by
  have hr : (c.step store limit).Runs [] (c.bind identity) := by
    simp only [step, hp]
    exact .done _
  exact serves_one hub hr rfl

theorem runs_serving (hp : c.phase = .serving identity)
    (hc : c.session = s.enter ⟨cipher, [.base64], identity⟩) {question : Bytes}
    (hq : Enciphers cipher.secrets cipher.role.other cipher.received (Utf8.encode line) question) :
    (c.step store limit).Runs [.received none (.ok question)]
      (requested { c with session := s.enter ⟨{ cipher with received := cipher.received + 1 },
        [.base64], identity⟩ } identity (.ok line)) := by
  have hreceive : (c.session.receive none).Runs [.received none (.ok question)] _ :=
    hc ▸ Session.runs_receive_ok hq
  simp only [step, hp]
  refine runs_bind_done_iff.2 ⟨_, hreceive, ?_⟩
  simp only [Except.bind, Channel.textOf_eq_ok_iff.2 rfl]

theorem exists_runs_replying (hs : CipherSuite.Lawful)
    (hp : c.phase = .replying identity reply logout)
    (hc : c.session = s.enter ⟨cipher, [.base64], identity⟩)
    (hk : cipher.sent < SessionCrypt.directionBit)
    (hfits : ChaChaPoly.fits (Utf8.encode reply).length) : ∃ answer,
      Enciphers cipher.secrets cipher.role cipher.sent (Utf8.encode reply) answer ∧
      answer.length = 4 * (((Utf8.encode reply).length + 18) / 3) ∧
      (c.step store limit).Runs [.sent answer (.ok ())]
        (replied { c with session := s.enter ⟨{ cipher with sent := cipher.sent + 1 },
          [.base64], identity⟩ } identity reply logout (.ok ())) := by
  obtain ⟨answer, ha, hlen, hsend⟩ := Session.exists_runs_send hs hk hfits
  replace hsend : (c.session.send (Utf8.encode reply)).Runs [.sent answer (.ok ())] _ :=
    hc ▸ hsend s identity (.ok ())
  refine ⟨answer, ha, hlen, ?_⟩
  simp only [step, hp]
  exact runs_bind_done_iff.2 ⟨_, hsend, rfl⟩

/-- A request can be answered with the reply of the dispatcher. -/
theorem exists_serves_request (hs : CipherSuite.Lawful) (hp : c.phase = .serving identity)
    (hc : c.session = s.enter ⟨cipher, [.base64], identity⟩) {question : Bytes}
    (hq : Enciphers cipher.secrets cipher.role.other cipher.received (Utf8.encode line) question)
    (hl : Request.isLogout line = false) (hub : Hub) (hreply : Request.replyTo hub identity line = reply)
    (hk : cipher.sent < SessionCrypt.directionBit)
    (hfits : ChaChaPoly.fits (Utf8.encode reply).length) : ∃ pre d answer,
      Serves store limit c pre [] d ∧
      events pre = [.received none (.ok question), .sent answer (.ok ())] ∧
      notes pre = [.reply line reply] ∧ spoken pre = [answer] ∧
      answer.length = 4 * (((Utf8.encode reply).length + 18) / 3) ∧
      Enciphers cipher.secrets cipher.role cipher.sent (Utf8.encode reply) answer ∧
      d.session = s.enter ⟨{ cipher with
        sent := cipher.sent + 1, received := cipher.received + 1 }, [.base64], identity⟩ ∧
      d.phase = .serving identity := by
  let taken : Connection := { c with
    session := s.enter ⟨{ cipher with received := cipher.received + 1 }, [.base64], identity⟩
    phase := .dispatching identity line }
  let asked : Connection := { taken with phase := .replying identity reply false }
  have h₁ : Serves store limit c [⟨c, [.received none (.ok question)], taken⟩] [] taken :=
    serves_one hub (runs_serving store limit hp hc hq) (by simp [requested, hl, taken])
  have h₂ : Serves store limit taken [⟨taken, [], asked⟩] [] asked :=
    serves_one hub (.done _) (by simp [dispatch, hreply, asked])
  obtain ⟨answer, ha, hlen, hr⟩ :=
    exists_runs_replying (c := asked) store limit hs rfl rfl hk hfits
  have h₃ := serves_one hub hr rfl
  exact ⟨_, _, answer, (h₁.append h₂).append h₃, rfl, by simp [notes, Deed.note?, hp, taken, asked],
    by simp [spoken, Deed.spoken, hp, taken, asked], hlen, ha, rfl, rfl⟩

/-- A request for a logout can be granted, and somebody else awaited. -/
theorem exists_serves_logout (hs : CipherSuite.Lawful) (hstage : s.stage = .unauthenticated [.base64])
    (hp : c.phase = .serving identity) (hc : c.session = s.enter ⟨cipher, [.base64], identity⟩)
    {question : Bytes}
    (hq : Enciphers cipher.secrets cipher.role.other cipher.received (Utf8.encode line) question)
    (hl : Request.isLogout line = true) (hub : Hub) (hk : cipher.sent < SessionCrypt.directionBit) :
    ∃ pre d answer, Serves store limit c pre [] d ∧
      events pre = [.received none (.ok question), .sent answer (.ok ())] ∧
      notes pre = [.farewell] ∧ spoken pre = [answer] ∧ answer.length = 56 ∧
      Enciphers cipher.secrets cipher.role cipher.sent (Utf8.encode Request.loggedOut) answer ∧
      d.session = s ∧ d.phase = .handshake true := by
  let taken : Connection := { c with
    session := s.enter ⟨{ cipher with received := cipher.received + 1 }, [.base64], identity⟩
    phase := .replying identity Request.loggedOut true }
  have h₁ : Serves store limit c [⟨c, [.received none (.ok question)], taken⟩] [] taken :=
    serves_one hub (runs_serving store limit hp hc hq) (by simp [requested, hl, taken])
  let answered : Connection := { taken with
    session := s.enter ⟨{ cipher with sent := cipher.sent + 1, received := cipher.received + 1 },
      [.base64], identity⟩
    phase := .unbinding identity }
  obtain ⟨answer, ha, hlen, hr⟩ :=
    exists_runs_replying (c := taken) store limit hs rfl rfl hk (by decide)
  have h₂ : Serves store limit taken [⟨taken, [.sent answer (.ok ())], answered⟩] [] answered :=
    serves_one hub hr rfl
  let released : Connection := { answered with phase := .loggingOut }
  have h₃ : Serves store limit answered [⟨answered, [], released⟩] [] released :=
    serves_one hub (.done _) rfl
  let fresh : Connection := { c with session := s, phase := .handshake true }
  have hlogout : released.session.logout = (.ok identity, s) := by
    simp only [released, answered, Session.logout, Session.enter, ← hstage]
  have h₄ : Serves store limit released [⟨released, [], fresh⟩] [] fresh :=
    serves_one hub (.done _) (by simp only [Connection.logout, hlogout]; rfl)
  exact ⟨_, fresh, answer, ((h₁.append h₂).append h₃).append h₄, rfl,
    by simp [notes, Deed.note?, hp, taken, answered, released],
    by simp [spoken, Deed.spoken, hp, taken, answered, released], hlen, ha, rfl, rfl⟩

/-- Who is online already can be told so. -/
theorem exists_serves_refusal (hs : CipherSuite.Lawful) (hp : c.phase = .binding identity)
    (hc : c.session = s.enter ⟨cipher, [.base64], identity⟩) (hub : Hub)
    (honline : hub.table.isOnline identity = true) (hk : cipher.sent < SessionCrypt.directionBit) :
    ∃ pre d answer, Serves store limit c pre [] d ∧ events pre = [.sent answer (.ok ())] ∧
      notes pre = [.refused] ∧ spoken pre = [answer] ∧ answer.length = 48 ∧
      Enciphers cipher.secrets cipher.role cipher.sent (Utf8.encode ChatError.alreadyLoggedInText)
        answer := by
  have hfits : ChaChaPoly.fits (Utf8.encode ChatError.alreadyLoggedInText).length := by decide
  obtain ⟨answer, ha, hlen, hsend⟩ := Session.exists_runs_send hs hk hfits
  let turned : Connection := { c with phase := .refusing .alreadyLoggedIn }
  have h₁ : Serves store limit c [⟨c, [], turned⟩] [] turned := by
    have hbind : (c.bind identity hub).2 = turned := by
      simp only [Connection.bind, SessionTable.bind, if_pos honline, turned]
    exact hbind ▸ serves_binding store limit hp hub
  replace hsend : (turned.session.send (Utf8.encode ChatError.alreadyLoggedInText)).Runs
      [.sent answer (.ok ())] _ := (show turned.session = _ from hc) ▸ hsend s identity (.ok ())
  have hr : (turned.step store limit).Runs [.sent answer (.ok ())]
      (refused { turned with session := s.enter ⟨{ cipher with sent := cipher.sent + 1 },
        [.base64], identity⟩ } .alreadyLoggedIn (.ok ())) :=
    runs_bind_done_iff.2 ⟨_, hsend, rfl⟩
  exact ⟨_, _, answer, h₁.append (serves_one hub hr rfl), rfl,
    by simp [notes, Deed.note?, hp, turned], by simp [spoken, Deed.spoken, hp, turned], hlen, ha⟩

end SealedChat.Connection
