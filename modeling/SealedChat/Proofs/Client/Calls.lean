import Mathlib.Tactic.SplitIfs
import SealedChat.Proofs.Handshake.Initiate
import SealedChat.Proofs.Session.Traffic
import SealedChat.Service.Client

/-!
# The calls of a client

Somebody calls a client, any number of times and in any order: to log in, to send a request, to log
out. What a call does depends on the stage of the session (`Stands`):

* before a login and after a logout, only a login does anything. It ends in a session or closes the
  line (`runs_login_cases`);
* in a session, requests and logouts put out one line and wait for one (`Traffic`), and a login is
  refused;
* once the line is closed nothing happens any more.

A session is left by a logout alone, whatever the texts of the requests are.
-/

namespace SealedChat.Client

open Dialogue

inductive Call where
  | login (identity : String)
  | request (line : String)
  | logout
deriving DecidableEq

namespace Call

/-- The text that a call sends in a session. -/
def text? : Call → Option String
  | login _ => none
  | request line => some line
  | logout => some Request.logout

theorem eq_login {x : Call} (h : x.text? = none) : ∃ identity, x = login identity := by
  cases x with
  | login identity => exact ⟨identity, rfl⟩
  | request line => cases h
  | logout => cases h

/-- The session after an answer. Only a logout leaves it, for `s`. -/
def after (s : Session) (cipher : SessionCipher) (identity : String) : Call → Session
  | logout => s
  | _ => s.enter ⟨cipher, [.base64], identity⟩

@[simp] theorem after_request (s : Session) (cipher : SessionCipher) (identity line : String) :
    (request line).after s cipher identity = s.enter ⟨cipher, [.base64], identity⟩ := rfl

@[simp] theorem after_logout (s : Session) (cipher : SessionCipher) (identity : String) :
    logout.after s cipher identity = s := rfl

end Call

/-- A call, what happened on the line, and what the call returned. -/
structure Entry where
  call : Call
  events : List Event
  result : Outcome String

namespace Entry

/-- The text of which a line was put out, if that was not for a login. -/
def text? (x : Entry) : Option String := if said x.events = [] then none else x.call.text?

/-- The reply to a request or to a logout. -/
def reply? (x : Entry) : Option String := if x.call.text? = none then none else x.result.toOption

/-- The lines that were put out, if that was not for a login. -/
def spoken (x : Entry) : List Bytes := if x.call.text? = none then [] else said x.events

/-- If a text was put out, its reply has come in time. -/
def Answered (x : Entry) : Prop := ∀ text, x.text? = some text → ∃ reply, x.result = .ok reply

end Entry

/-! ## Several calls -/

section

variable (xs : List Entry)

def events : List Event := xs.flatMap Entry.events

/-- The texts that were put out in requests and logouts. -/
def texts : List String := xs.filterMap Entry.text?

/-- The replies that requests and logouts have returned. -/
def replies : List String := xs.filterMap Entry.reply?

def spoken : List Bytes := xs.flatMap Entry.spoken

variable (ys : List Entry)

@[simp] theorem events_nil : events [] = [] := rfl

@[simp] theorem events_cons (x : Entry) : events (x :: xs) = x.events ++ events xs := rfl

@[simp] theorem texts_append : texts (xs ++ ys) = texts xs ++ texts ys := List.filterMap_append

@[simp] theorem replies_append : replies (xs ++ ys) = replies xs ++ replies ys :=
  List.filterMap_append

@[simp] theorem spoken_nil : spoken [] = [] := rfl

@[simp] theorem spoken_cons (x : Entry) : spoken (x :: xs) = x.spoken ++ spoken xs := rfl

variable {xs} {x : Entry}

theorem texts_cons_of_silent (h : said x.events = []) : texts (x :: xs) = texts xs :=
  List.filterMap_cons_none (if_pos h)

theorem texts_cons_of_login {identity : String} (h : x.call = .login identity) :
    texts (x :: xs) = texts xs := by
  refine List.filterMap_cons_none ?_
  rw [Entry.text?, h]
  exact ite_self none

theorem texts_cons_of_said {text : String} (h : said x.events ≠ []) (ht : x.call.text? = some text) :
    texts (x :: xs) = text :: texts xs :=
  List.filterMap_cons_some (by rw [Entry.text?, if_neg h, ht])

theorem replies_cons_of_error {e : ChatError} (h : x.result = .error e) :
    replies (x :: xs) = replies xs := by
  refine List.filterMap_cons_none ?_
  rw [Entry.reply?, h]
  exact ite_self none

theorem replies_cons_of_login {identity : String} (h : x.call = .login identity) :
    replies (x :: xs) = replies xs :=
  List.filterMap_cons_none (if_pos (by rw [h]; rfl))

theorem replies_cons_of_ok {text reply : String} (ht : x.call.text? = some text)
    (h : x.result = .ok reply) : replies (x :: xs) = reply :: replies xs :=
  List.filterMap_cons_some (by rw [Entry.reply?, if_neg (by rw [ht]; simp), h]; rfl)

end

variable [CipherSuite]

def call (c : Client) : Call → Dialogue (Outcome String × Client)
  | .login identity => do
    let (o, c) ← c.login identity
    return (o.map fun _ => identity, c)
  | .request line => c.request line
  | .logout => c.logout

/-- Calls, one after the other. -/
inductive Calls : Client → List Entry → Client → Prop
  | nil (c : Client) : Calls c [] c
  | cons {c c₁ c' : Client} {x : Entry} {xs : List Entry} :
      (c.call x.call).Runs x.events (x.result, c₁) → Calls c₁ xs c' → Calls c (x :: xs) c'

/-! ## The stages of a session -/

/-- The stages of a session that begins as `s`, over a line of Base64 words. -/
inductive Stands (s : Session) : Session → Prop
  | out : Stands s s
  | within (cipher : SessionCipher) (identity : String) :
      Stands s (s.enter ⟨cipher, [.base64], identity⟩)
  | closed : Stands s s.shut

variable {c c' : Client} {s : Session} {own : PrivateKey} {server : PublicKey}
  {cipher : SessionCipher} {identity text : String} {x : Call} {es : List Event}
  {r : Outcome String}

/-! ### Logins -/

theorem call_login : c.call (.login identity) =
    c.session.initiate identity c.handshakeTimeout >>= fun p =>
      done (p.1.map fun _ => identity, { c with session := p.2 }) := by
  rw [call, login, Dialogue.bind_assoc]
  refine congrArg (Dialogue.bind _) (funext fun p => ?_)
  rcases p with ⟨_ | _, session⟩ <;> rfl

theorem runs_login_iff : (c.call (.login identity)).Runs es (r, c') ↔
    ∃ o session, (c.session.initiate identity c.handshakeTimeout).Runs es (o, session) ∧
      r = o.map (fun _ => identity) ∧ c' = { c with session } := by
  rw [call_login, runs_bind_done_iff]
  constructor
  · rintro ⟨⟨o, session⟩, h, heq⟩
    obtain ⟨rfl, rfl⟩ := Prod.mk.inj heq
    exact ⟨o, session, h, rfl, rfl⟩
  · rintro ⟨o, session, h, rfl, rfl⟩
    exact ⟨(o, session), h, rfl⟩

/-- A login closes the line, or says who is there, hears the answer, and is in a session. -/
theorem runs_login_cases (hc : c.session = .new [.base64] own (some server))
    (h : (c.call (.login identity)).Runs es (r, c')) :
    ((∃ e, r = .error e) ∧ c'.session = (Session.new [.base64] own (some server)).shut) ∨
    ∃ answers hello reply confirm ca cb secrets, r = .ok identity ∧
      es = draws answers ++ [.sent hello (.ok ()),
        .received (some c.handshakeTimeout) (.ok reply), .sent confirm (.ok ())] ∧
      Principal.IsValid identity ∧ Handshake.Greets server hello identity ca ∧
      Handshake.Echoes own reply ca cb secrets ∧ Handshake.Returns secrets confirm cb ∧
      c'.session = (Session.new [.base64] own (some server)).enter
        ⟨⟨secrets, .initiator, 1, 0⟩, [.base64], identity⟩ := by
  obtain ⟨o, session, h₁, rfl, rfl⟩ := runs_login_iff.1 h
  rw [hc] at h₁
  obtain ⟨es₁, es₂, o', rfl, h₂, h₃⟩ := runs_bind_iff.1 h₁
  cases o' with
  | error e =>
    obtain ⟨rfl, heq⟩ := runs_done_iff.1 h₃
    obtain ⟨rfl, rfl⟩ := Prod.mk.inj heq
    exact .inl ⟨⟨e, rfl⟩, rfl⟩
  | ok secured =>
    obtain ⟨rfl, heq⟩ := runs_done_iff.1 h₃
    obtain ⟨rfl, rfl⟩ := Prod.mk.inj heq
    rcases Handshake.initiate_cases h₂ with ⟨_, _, he, -⟩ |
      ⟨key, answers, hello, reply, confirm, ca, cb, _, hr, hi, hk, rfl, hg, hecho, hret, heq⟩
    · cases he
    · cases hr
      obtain rfl : server = key := Option.some.inj hk
      generalize secured.secrets = secrets at hecho hret heq
      subst heq
      exact .inr ⟨answers, hello, reply, confirm, ca, cb, secrets, rfl, by simp, hi, hg, hecho,
        hret, rfl⟩

/-- Only somebody who is not logged in yet can log in. -/
theorem runs_login_refused (hc : ∀ inner, c.session.stage ≠ .unauthenticated inner)
    (h : (c.call (.login identity)).Runs es (r, c')) : es = [] ∧ (∃ e, r = .error e) ∧ c' = c := by
  obtain ⟨o, session, h₁, rfl, rfl⟩ := runs_login_iff.1 h
  unfold Session.initiate Session.login at h₁
  split at h₁
  next inner hstage => exact absurd hstage (hc inner)
  next =>
    obtain ⟨rfl, heq⟩ := runs_done_iff.1 h₁
    obtain ⟨rfl, rfl⟩ := Prod.mk.inj heq
    exact ⟨rfl, ⟨_, rfl⟩, rfl⟩

/-! ### Requests and logouts -/

/-- Without a session there is nothing to do. -/
theorem runs_request_refused (hc : c.session.identity = none)
    (h : (c.request text).Runs es (r, c')) : es = [] ∧ (∃ e, r = .error e) ∧ c' = c := by
  obtain ⟨es₁, es₂, ⟨o, session⟩, rfl, h₁, h₂⟩ := runs_bind_iff.1 h
  obtain ⟨rfl, rfl, rfl⟩ := Session.runs_send_refused hc h₁
  obtain ⟨rfl, heq⟩ := runs_done_iff.1 h₂
  obtain ⟨rfl, rfl⟩ := Prod.mk.inj heq
  exact ⟨rfl, ⟨_, rfl⟩, rfl⟩

/-- What a request or a logout does in the session that `s` has entered. -/
inductive Traffic (s : Session) (cipher : SessionCipher) (identity text : String) (x : Call) :
    List Event → Outcome String → Session → Prop
  /-- Nothing is put out. -/
  | silent (e : ChatError) :
      Traffic s cipher identity text x [] (.error e) (s.enter ⟨cipher, [.base64], identity⟩)
  /-- The line is not taken. -/
  | lost (line : Bytes) (e e' : ChatError) :
      Traffic s cipher identity text x [.sent line (.error e)] (.error e')
        (s.enter ⟨{ cipher with sent := cipher.sent + 1 }, [.base64], identity⟩)
  /-- No line comes back, or none in time. -/
  | unanswered {line : Bytes} (wait : Option Duration) (e e' : ChatError) :
      Enciphers cipher.secrets cipher.role cipher.sent (Utf8.encode text) line →
      Traffic s cipher identity text x [.sent line (.ok ()), .received wait (.error e)] (.error e')
        (s.enter ⟨{ cipher with sent := cipher.sent + 1 }, [.base64], identity⟩)
  /-- The line that comes back is not a text of the session. -/
  | garbled {line answer : Bytes} (wait : Option Duration) (e : ChatError)
      (cipher' : SessionCipher) :
      Enciphers cipher.secrets cipher.role cipher.sent (Utf8.encode text) line →
      (∀ reply, ¬Enciphers cipher.secrets cipher.role.other cipher.received (Utf8.encode reply)
        answer) →
      Traffic s cipher identity text x [.sent line (.ok ()), .received wait (.ok answer)] (.error e)
        (s.enter ⟨cipher', [.base64], identity⟩)
  | answered {line answer : Bytes} {reply : String} (wait : Option Duration) :
      Enciphers cipher.secrets cipher.role cipher.sent (Utf8.encode text) line →
      Enciphers cipher.secrets cipher.role.other cipher.received (Utf8.encode reply) answer →
      Traffic s cipher identity text x [.sent line (.ok ()), .received wait (.ok answer)] (.ok reply)
        (x.after s { cipher with sent := cipher.sent + 1, received := cipher.received + 1 } identity)

theorem traffic_of_request (hs : CipherSuite.Lawful)
    (hc : c.session = s.enter ⟨cipher, [.base64], identity⟩)
    (h : (c.request text).Runs es (r, c')) :
    Traffic s cipher identity text (.request text) es r c'.session := by
  obtain ⟨es₁, es₂, ⟨o, session⟩, rfl, h₁, h₂⟩ := runs_bind_iff.1 h
  rw [hc] at h₁
  rcases Session.runs_send_cases hs h₁ with ⟨rfl, ⟨e, rfl⟩, rfl⟩ | ⟨line, rfl, hline, rfl⟩
  · obtain ⟨rfl, heq⟩ := runs_done_iff.1 h₂
    obtain ⟨rfl, rfl⟩ := Prod.mk.inj heq
    exact .silent e
  cases o with
  | error e =>
    obtain ⟨rfl, heq⟩ := runs_done_iff.1 h₂
    obtain ⟨rfl, rfl⟩ := Prod.mk.inj heq
    exact .lost line e e
  | ok u =>
    obtain ⟨⟨o, session⟩, h₃, heq⟩ := runs_bind_done_iff.1 h₂
    obtain ⟨rfl, rfl⟩ := Prod.mk.inj heq
    obtain ⟨a, rfl, ⟨answer, payload, rfl, hanswer, rfl, rfl⟩ | ⟨⟨e, rfl⟩, rfl, hnone⟩⟩ :=
      Session.runs_receive_cases h₃
    · cases ht : Channel.textOf payload with
      | ok reply =>
        obtain rfl := Channel.textOf_eq_ok_iff.1 ht
        simp only [Except.bind, ht]
        exact .answered _ hline hanswer
      | error e =>
        simp only [Except.bind, ht]
        refine .garbled _ e _ hline fun reply hreply => ?_
        rw [hanswer.unique hreply, Channel.textOf_eq_ok_iff.2 rfl] at ht
        cases ht
    · cases a with
      | error e' => exact .unanswered _ e' e hline
      | ok answer => exact .garbled _ e _ hline fun reply => hnone answer _ rfl

/-- The end of a logout: a session is left if there was a reply. -/
def leave : Outcome String × Client → Outcome String × Client
  | (.error e, c) => (.error e, c)
  | (.ok reply, c) => (c.session.logout.1.map fun _ => reply, { c with session := c.session.logout.2 })

theorem logout_eq : c.logout = c.request Request.logout >>= fun p => done (leave p) := by
  refine congrArg (Dialogue.bind _) (funext fun p => ?_)
  rcases p with ⟨_ | _, c⟩ <;> rfl

omit [CipherSuite] in
theorem logout_enter (hstage : s.stage = .unauthenticated [.base64]) :
    (s.enter ⟨cipher, [.base64], identity⟩).logout = (.ok identity, s) := by
  rw [Session.logout, Session.enter]
  dsimp only
  rw [← hstage]

theorem traffic_of_logout (hs : CipherSuite.Lawful) (hstage : s.stage = .unauthenticated [.base64])
    (hc : c.session = s.enter ⟨cipher, [.base64], identity⟩) (h : c.logout.Runs es (r, c')) :
    Traffic s cipher identity Request.logout .logout es r c'.session := by
  rw [logout_eq, runs_bind_done_iff] at h
  obtain ⟨⟨o, c₁⟩, h₁, heq⟩ := h
  have htraffic := traffic_of_request hs hc h₁
  cases o with
  | error e =>
    obtain ⟨rfl, rfl⟩ := Prod.mk.inj heq
    generalize c'.session = session at htraffic
    cases htraffic with
    | silent => exact .silent e
    | lost line e' => exact .lost line e' e
    | unanswered wait e' _ hline => exact .unanswered wait e' e hline
    | garbled wait _ cipher' hline hnone => exact .garbled wait e cipher' hline hnone
  | ok reply =>
    rw [leave] at heq
    generalize c₁.session = session at htraffic heq
    cases htraffic with
    | answered wait hline hanswer =>
      rw [Call.after_request, logout_enter hstage] at heq
      obtain ⟨rfl, rfl⟩ := Prod.mk.inj heq
      exact .answered wait hline hanswer

/-- **Requests and logouts are traffic.** -/
theorem traffic_of_runs (hs : CipherSuite.Lawful) (hstage : s.stage = .unauthenticated [.base64])
    (hc : c.session = s.enter ⟨cipher, [.base64], identity⟩) (hx : x.text? = some text)
    (h : (c.call x).Runs es (r, c')) : Traffic s cipher identity text x es r c'.session := by
  cases x with
  | login => cases hx
  | request line =>
    obtain rfl : line = text := Option.some.inj hx
    exact traffic_of_request hs hc h
  | logout =>
    obtain rfl : Request.logout = text := Option.some.inj hx
    exact traffic_of_logout hs hstage hc h

theorem runs_call_refused (hc : c.session.identity = none) (hx : x.text? = some text)
    (h : (c.call x).Runs es (r, c')) : es = [] ∧ (∃ e, r = .error e) ∧ c' = c := by
  cases x with
  | login => cases hx
  | request line => exact runs_request_refused hc h
  | logout =>
    replace h : c.logout.Runs es (r, c') := h
    rw [logout_eq, runs_bind_done_iff] at h
    obtain ⟨⟨o, c₁⟩, h₁, heq⟩ := h
    obtain ⟨rfl, ⟨e, rfl⟩, rfl⟩ := runs_request_refused hc h₁
    obtain ⟨rfl, rfl⟩ := Prod.mk.inj heq
    exact ⟨rfl, ⟨e, rfl⟩, rfl⟩

/-! ### Such calls are possible -/

theorem runs_login_ok {secured : Handshake.Secured}
    (hc : c.session = .new [.base64] own (some server))
    (h : (Handshake.initiate ⟨own, some server⟩ [.base64] identity c.handshakeTimeout).Runs es
      (.ok secured)) :
    (c.call (.login identity)).Runs es
      (.ok identity, { c with session := (Session.new [.base64] own (some server)).enter secured }) := by
  refine runs_login_iff.2 ⟨.ok secured.identity, _, ?_, rfl, rfl⟩
  rw [hc]
  exact runs_bind_iff.2 ⟨es, [], .ok secured, (List.append_nil es).symm, h, .done _⟩

/-- A short text can be put out in a request, whatever the line says to it. -/
theorem exists_runs_request (hs : CipherSuite.Lawful)
    (hc : c.session = s.enter ⟨cipher, [.base64], identity⟩)
    (hk : cipher.sent < SessionCrypt.directionBit)
    (hfits : ChaChaPoly.fits (Utf8.encode text).length) : ∃ line,
      Enciphers cipher.secrets cipher.role cipher.sent (Utf8.encode text) line ∧
      line.length = 4 * (((Utf8.encode text).length + 18) / 3) ∧
      (∀ answer reply, Enciphers cipher.secrets cipher.role.other cipher.received
          (Utf8.encode reply) answer →
        (c.call (.request text)).Runs
          [.sent line (.ok ()), .received (some c.responseTimeout) (.ok answer)]
          (.ok reply, { c with session := s.enter ⟨{ cipher with
            sent := cipher.sent + 1, received := cipher.received + 1 }, [.base64], identity⟩ })) ∧
      ∀ e, (c.call (.request text)).Runs
        [.sent line (.ok ()), .received (some c.responseTimeout) (.error e)]
        (.error e, { c with
          session := s.enter ⟨{ cipher with sent := cipher.sent + 1 }, [.base64], identity⟩ }) := by
  obtain ⟨line, hline, hlen, hsend⟩ := Session.exists_runs_send hs hk hfits
  replace hsend : (c.session.send (Utf8.encode text)).Runs [.sent line (.ok ())] _ :=
    hc ▸ hsend s identity (.ok ())
  refine ⟨line, hline, hlen, fun answer reply hanswer => ?_, fun e => ?_⟩
  · have hreceive : ((s.enter ⟨{ cipher with sent := cipher.sent + 1 }, [.base64],
        identity⟩).receive (some c.responseTimeout)).Runs
        [.received (some c.responseTimeout) (.ok answer)] _ := Session.runs_receive_ok hanswer
    refine runs_bind_iff.2 ⟨[_], [_], _, rfl, hsend, runs_bind_done_iff.2 ⟨_, hreceive, ?_⟩⟩
    simp only [Except.bind, Channel.textOf_eq_ok_iff.2 rfl]
  · have hreceive : ((s.enter ⟨{ cipher with sent := cipher.sent + 1 }, [.base64],
        identity⟩).receive (some c.responseTimeout)).Runs
        [.received (some c.responseTimeout) (.error e)] _ := Session.runs_receive_error e
    exact runs_bind_iff.2 ⟨[_], [_], _, rfl, hsend, runs_bind_done_iff.2 ⟨_, hreceive, rfl⟩⟩

/-! ## What a call needs -/

/-- On a line that is closed nothing happens, and every call fails. -/
theorem Calls.of_shut {xs : List Entry} (h : Calls c xs c') (hc : c.session = s.shut) :
    ∀ x ∈ xs, x.events = [] ∧ ∃ e, x.result = .error e := by
  induction h with
  | nil => exact List.forall_mem_nil _
  | @cons c c₁ c' x xs hr _ ih =>
    have hx : x.events = [] ∧ (∃ e, x.result = .error e) ∧ c₁ = c := by
      cases ht : x.call.text? with
      | some text => exact runs_call_refused (by rw [hc]; rfl) ht hr
      | none =>
        obtain ⟨identity, hcall⟩ := Call.eq_login ht
        rw [hcall] at hr
        exact runs_login_refused (by rw [hc]; simp [Session.shut]) hr
    obtain ⟨hx, he, rfl⟩ := hx
    exact List.forall_mem_cons.2 ⟨⟨hx, he⟩, ih hc⟩

theorem Calls.said_of_shut {xs : List Entry} (h : Calls c xs c') (hc : c.session = s.shut) :
    said (events xs) = [] := by
  have hnone : events xs = [] := List.flatMap_eq_nil_iff.2 fun x hx => (h.of_shut hc x hx).1
  rw [hnone]
  rfl

/-- A session stays at its stages, and a reply has been asked for and has come. -/
theorem Stands.call (hs : CipherSuite.Lawful)
    (h : Stands (.new [.base64] own (some server)) c.session)
    (hr : (c.call x).Runs es (r, c')) :
    Stands (.new [.base64] own (some server)) c'.session ∧
      ∀ text reply, x.text? = some text → r = .ok reply → said es ≠ [] ∧ heard es ≠ [] := by
  cases ht : x.text? with
  | none =>
    refine ⟨?_, fun _ _ h => by cases h⟩
    obtain ⟨identity, rfl⟩ := Call.eq_login ht
    generalize hsession : c.session = session at h
    cases h with
    | out =>
      rcases runs_login_cases hsession hr with ⟨-, hc'⟩ |
        ⟨_, _, _, _, _, _, secrets, -, -, -, -, -, -, hc'⟩
      · rw [hc']
        exact .closed
      · rw [hc']
        exact .within _ _
    | within cipher name =>
      obtain ⟨-, -, rfl⟩ := runs_login_refused (by rw [hsession]; simp [Session.enter]) hr
      rw [hsession]
      exact .within cipher name
    | closed =>
      obtain ⟨-, -, rfl⟩ := runs_login_refused (by rw [hsession]; simp [Session.shut]) hr
      rw [hsession]
      exact .closed
  | some text =>
    generalize hsession : c.session = session at h
    cases h with
    | within cipher name =>
      have htraffic := traffic_of_runs hs rfl hsession ht hr
      generalize c'.session = session' at htraffic
      cases htraffic with
      | silent e => exact ⟨.within _ _, fun _ _ _ h => by cases h⟩
      | lost line e e' => exact ⟨.within _ _, fun _ _ _ h => by cases h⟩
      | unanswered wait e e' hline => exact ⟨.within _ _, fun _ _ _ h => by cases h⟩
      | garbled wait e cipher' hline hnone => exact ⟨.within _ _, fun _ _ _ h => by cases h⟩
      | answered wait hline hanswer =>
        refine ⟨?_, fun _ _ _ _ => ⟨by simp, by simp⟩⟩
        cases x with
        | logout => exact .out
        | request line => exact .within _ _
        | login name => cases ht
    | out =>
      obtain ⟨-, ⟨e, rfl⟩, rfl⟩ := runs_call_refused (by rw [hsession]; rfl) ht hr
      rw [hsession]
      exact ⟨.out, fun _ _ _ h => by cases h⟩
    | closed =>
      obtain ⟨-, ⟨e, rfl⟩, rfl⟩ := runs_call_refused (by rw [hsession]; rfl) ht hr
      rw [hsession]
      exact ⟨.closed, fun _ _ _ h => by cases h⟩

theorem Calls.split {xs ys : List Entry} (h : Calls c (xs ++ ys) c') :
    ∃ c₁, Calls c xs c₁ ∧ Calls c₁ ys c' := by
  induction xs generalizing c with
  | nil => exact ⟨c, .nil c, h⟩
  | cons x xs ih =>
    cases h with
    | cons hr h =>
      obtain ⟨c₁, h₁, h₂⟩ := ih h
      exact ⟨c₁, .cons hr h₁, h₂⟩

theorem Stands.calls {xs : List Entry} (hs : CipherSuite.Lawful)
    (h : Stands (.new [.base64] own (some server)) c.session) (hcalls : Calls c xs c') :
    Stands (.new [.base64] own (some server)) c'.session := by
  induction hcalls with
  | nil => exact h
  | cons hr _ ih => exact ih (h.call hs hr).1

/-- If every text has got its reply, there are as many of these as of those. -/
theorem Calls.length_replies {xs : List Entry} (hs : CipherSuite.Lawful)
    (hc : Stands (.new [.base64] own (some server)) c.session) (h : Calls c xs c')
    (ha : ∀ x ∈ xs, x.Answered) : (replies xs).length = (texts xs).length := by
  induction h with
  | nil => rfl
  | @cons c c₁ c' x xs hr _ ih =>
    obtain ⟨hc₁, hreply⟩ := hc.call hs hr
    have hlength := ih hc₁ fun y hy => ha y (List.mem_cons_of_mem x hy)
    cases ht : x.call.text? with
    | none =>
      obtain ⟨identity, hcall⟩ := Call.eq_login ht
      rw [replies_cons_of_login hcall, texts_cons_of_login hcall, hlength]
    | some text =>
      cases hresult : x.result with
      | ok reply =>
        obtain ⟨hsaid, -⟩ := hreply text reply ht hresult
        rw [replies_cons_of_ok ht hresult, texts_cons_of_said hsaid ht, List.length_cons,
          List.length_cons, hlength]
      | error e =>
        have hsaid : said x.events = [] := by
          by_contra hsaid
          obtain ⟨reply, hr'⟩ := ha x List.mem_cons_self text (by rw [Entry.text?, if_neg hsaid, ht])
          rw [hresult] at hr'
          cases hr'
        rw [replies_cons_of_error hresult, texts_cons_of_silent hsaid, hlength]

/-- Where nothing is said any more, or nothing heard, there are no replies. -/
theorem Calls.replies_eq_nil {xs : List Entry} (hs : CipherSuite.Lawful)
    (hc : Stands (.new [.base64] own (some server)) c.session) (h : Calls c xs c')
    (hstill : said (events xs) = [] ∨ heard (events xs) = []) : replies xs = [] := by
  induction h with
  | nil => rfl
  | @cons c c₁ c' x xs hr _ ih =>
    rw [events_cons, said_append, heard_append, List.append_eq_nil_iff,
      List.append_eq_nil_iff] at hstill
    obtain ⟨hc₁, hreply⟩ := hc.call hs hr
    have hnone : x.reply? = none := by
      unfold Entry.reply?
      split_ifs with ht
      · rfl
      obtain ⟨text, ht⟩ := Option.ne_none_iff_exists'.1 ht
      cases hresult : x.result with
      | error e => rfl
      | ok reply =>
        obtain ⟨hsaid, hheard⟩ := hreply text reply ht hresult
        rcases hstill with ⟨h, -⟩ | ⟨h, -⟩
        · exact absurd h hsaid
        · exact absurd h hheard
    rw [replies, List.filterMap_cons_none hnone]
    exact ih hc₁ (hstill.imp And.right And.right)

end SealedChat.Client
