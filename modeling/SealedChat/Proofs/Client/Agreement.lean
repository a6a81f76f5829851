import SealedChat.Proofs.Client.Link

/-!
# Who is logged in, at both ends

A client and a connection of a server on one line where nothing is late (`Punctual`): every line that
the client has put out has come to the connection, nobody gives up waiting, and nobody is turned away.

The client changes its stage by the call that somebody makes, the connection by the text of a line.
Between two calls they are in step (`InStep`): nobody is logged in at either end, or the same principal
is at both, under the same secrets and with the same numbers of messages. One call keeps them in step
(`InStep.call`), with one exception: a request whose text asks for a logout. The connection grants it,
and the client stays in a session that is no longer there (`Parted`). Then no call succeeds any more.

**Main result** (`stages_agree`). After a call that has succeeded, and once the connection is done with
it, both ends name the same principal or none, unless that call was a request for a logout.
-/

namespace SealedChat

/-- A connection that waits for a line, or that has come to its end. -/
def Connection.Phase.IsWaiting : Connection.Phase → Prop
  | .handshake _ | .serving _ | .ended => True
  | _ => False

namespace Client

open Dialogue
open Connection (Deed Note Serves)

/-- A request for a logout, which only the connection takes for one. -/
def Call.asksLogout : Call → Bool
  | .request line => Request.isLogout line
  | _ => false

/-- No line is late or lost, and nobody is turned away. -/
structure Punctual (xs : List Entry) (ds : List Deed) : Prop where
  arrived : heard (Connection.events ds) = said (events xs)
  sound : Sound (events xs)
  sound' : Sound (Connection.events ds)
  accepted : Note.refused ∉ Connection.notes ds

theorem Punctual.tail {x : Entry} {xs : List Entry} {ds : List Deed} (pre : List Deed)
    (h : Punctual (x :: xs) (pre ++ ds)) (hin : heard (Connection.events pre) = said x.events) :
    Punctual xs ds where
  arrived := by
    have h' := h.arrived
    rw [Connection.events_append, heard_append, events_cons, said_append, hin] at h'
    exact List.append_cancel_left h'
  sound := (sound_append.1 h.sound).2
  sound' := by
    have h' := h.sound'
    rw [Connection.events_append] at h'
    exact (sound_append.1 h').2
  accepted hmem := h.accepted (by
    rw [Connection.notes_append]
    exact List.mem_append_right _ hmem)

variable [CipherSuite] {client server : PrivateKey} {store : KeyStore} {limit : Duration}
  {c c₁ c' : Client} {d d₁ d' : Connection} {x : Entry} {xs : List Entry} {ds : List Deed}

/-- The same principal is logged in at both ends, or nobody is. -/
inductive InStep (client server : PrivateKey) : Session → Connection → Prop
  | out {d : Connection} : d.Vacant (.new [.base64] server none) →
      InStep client server (.new [.base64] client (some server.publicKey)) d
  | within {d : Connection} {secrets : Secrets} {n m : Nat} {identity : String} :
      d.phase = .serving identity ∨ d.phase = .binding identity →
      d.session = (Session.new [.base64] server none).enter
        ⟨⟨secrets, .responder, m, n⟩, [.base64], identity⟩ →
      InStep client server ((Session.new [.base64] client (some server.publicKey)).enter
        ⟨⟨secrets, .initiator, n, m⟩, [.base64], identity⟩) d

/-- Somebody is logged in at the client, and nobody at the connection. -/
inductive Parted (client server : PrivateKey) : Session → Connection → Prop
  | intro {d : Connection} (cipher : SessionCipher) (identity : String) :
      d.Vacant (.new [.base64] server none) →
      Parted client server ((Session.new [.base64] client (some server.publicKey)).enter
        ⟨cipher, [.base64], identity⟩) d

/-- What is known of the calls to come, and of what the connection will do. -/
structure Ahead (client server : PrivateKey) (store : KeyStore) (limit : Duration) (d' : Connection)
    (xs : List Entry) (d : Connection) (ds : List Deed) : Prop where
  serves : Serves store limit d ds [] d'
  linked : Linked [] xs ds []
  fair : Fair client server store [] xs ds
  punctual : Punctual xs ds

theorem Ahead.tail (pre : List Deed) (h : Ahead client server store limit d' (x :: xs) d (pre ++ ds))
    (h₁ : Serves store limit d₁ ds [] d') (hin : heard (Connection.events pre) = said x.events)
    (hout : said (Connection.events pre) = heard x.events) :
    Ahead client server store limit d' xs d₁ ds where
  serves := h₁
  linked := h.linked.tail pre (by rw [hin, List.append_nil, List.nil_append]) hout
  fair := h.fair.tail pre fun _ => .inl
  punctual := h.punctual.tail pre hin

/-- A call that does nothing. -/
theorem Ahead.idle (h : Ahead client server store limit d' (x :: xs) d ds) (hx : x.events = []) :
    Ahead client server store limit d' xs d ds :=
  h.tail [] h.serves (by rw [hx]; rfl) (by rw [hx]; rfl)

/-! ## One call -/

/-- What a call comes to: it fails, and changes nothing or closes the line; or it succeeds, and both
ends are in step or have parted. -/
inductive Comes (client server : PrivateKey) (store : KeyStore) (limit : Duration) (d' : Connection)
    (x : Entry) (xs : List Entry) (s₁ : Session) (d : Connection) (ds : List Deed) : Prop
  | closed (e : ChatError) : x.result = .error e →
      s₁ = (Session.new [.base64] client (some server.publicKey)).shut →
      Comes client server store limit d' x xs s₁ d ds
  | idle (e : ChatError) : x.result = .error e → Ahead client server store limit d' xs d ds →
      InStep client server s₁ d → Comes client server store limit d' x xs s₁ d ds
  | agreed {d₁ : Connection} {ds₁ : List Deed} : x.call.asksLogout = false →
      Ahead client server store limit d' xs d₁ ds₁ → InStep client server s₁ d₁ →
      Comes client server store limit d' x xs s₁ d ds
  | parted {d₁ : Connection} {ds₁ : List Deed} : x.call.asksLogout = true →
      Ahead client server store limit d' xs d₁ ds₁ → Parted client server s₁ d₁ →
      Comes client server store limit d' x xs s₁ d ds

/-- A login that succeeds at the client succeeds at the connection. -/
theorem InStep.call_out (hs : CipherSuite.Lawful)
    (h : Ahead client server store limit d' (x :: xs) d ds)
    (hv : d.Vacant (.new [.base64] server none))
    (hc : c.session = .new [.base64] client (some server.publicKey))
    (hr : (c.call x.call).Runs x.events (x.result, c₁)) :
    Comes client server store limit d' x xs c₁.session d ds := by
  cases ht : x.call.text? with
  | some text =>
    obtain ⟨hx, ⟨e, he⟩, rfl⟩ := runs_call_refused (by rw [hc]; rfl) ht hr
    exact .idle e he (h.idle hx) (hc ▸ .out hv)
  | none =>
    obtain ⟨identity, hcall⟩ := Call.eq_login ht
    rw [hcall] at hr
    rcases runs_login_cases hc hr with ⟨⟨e, he⟩, hc₁⟩ | ⟨answers, hello, reply, confirm, ca, cb,
      secrets, hresult, hx, hi, hgreets, hechoes, hreturns, hc₁⟩
    · exact .closed e he hc₁
    have hsaid : said x.events = [hello, confirm] := by simp [hx]
    have hheard : heard x.events = [reply] := by simp [hx]
    have hf := h.fair.known x List.mem_cons_self identity hcall hresult
    have hin := h.linked.toServer
    rw [events_cons, said_append, hsaid] at hin
    have hout := h.linked.toClient
    rw [events_cons, heard_append, hheard] at hout
    rcases meet_login hs h.serves hv hi hgreets hechoes hreturns hf hin hout with ⟨-, hstop⟩ |
      ⟨pre, d₁, ds₁, rfl, h₁, hpre, hpre', -, hd₁, hp₁⟩
    · -- the confirmation has come, so the connection has logged somebody in
      have harrived := h.punctual.arrived
      rw [events_cons, said_append, hsaid] at harrived
      rw [List.append_nil] at hstop
      exact absurd harrived (hstop rfl h.punctual.sound' _)
    · refine .agreed (by rw [hcall]; rfl) (h.tail pre h₁ (by rw [hpre, hsaid])
        (by rw [hpre', hheard])) ?_
      rw [hc₁]
      exact .within (.inr hp₁) hd₁

/-- A text is put out and a line comes back: it is the reply to that text. -/
theorem InStep.call_answered (hs : CipherSuite.Lawful)
    (h : Ahead client server store limit d' (x :: xs) d ds) {secrets : Secrets} {n m : Nat}
    {identity text : String} (hp : d.phase = .serving identity ∨ d.phase = .binding identity)
    (hd : d.session = (Session.new [.base64] server none).enter
      ⟨⟨secrets, .responder, m, n⟩, [.base64], identity⟩)
    (ht : x.call.text? = some text) {line answer : Bytes} (hsaid : said x.events = [line])
    (hheard : heard x.events = [answer])
    (hline : Enciphers secrets .initiator n (Utf8.encode text) line)
    (hresult : (∀ reply, ¬Enciphers secrets .responder m (Utf8.encode reply) answer) ∨
      c₁.session = x.call.after (.new [.base64] client (some server.publicKey))
        ⟨secrets, .initiator, n + 1, m + 1⟩ identity) :
    Comes client server store limit d' x xs c₁.session d ds := by
  have hin := h.linked.toServer
  rw [events_cons, said_append, hsaid] at hin
  have hout := h.linked.toClient
  rw [events_cons, heard_append, hheard] at hout
  have hnone : Session.Delivers ⟨secrets, .initiator, n, m⟩ ⟨secrets, .responder, m, n⟩ [] [] :=
    ⟨rfl, rfl, fun _ _ _ h => by simp at h⟩
  have hdel : Session.Delivers ⟨secrets, .initiator, n + 1, m⟩ ⟨secrets, .responder, m, n⟩
      ([text].map Utf8.encode) [line] := hnone.send hline
  rcases meet_answer hs h.serves hp hd hdel hin hout with
    ⟨-, hnotes, -⟩ | ⟨pre, d₁, ds₁, reply, note, rfl, h₁, hpre, hpre', -, -, hreply, -, hd₁, hp₁⟩
  · have haccepted := h.punctual.accepted
    rw [hnotes] at haccepted
    exact absurd (List.mem_singleton_self _) haccepted
  have hc₁ := hresult.resolve_left fun hnone => hnone reply hreply
  have h₂ := h.tail pre h₁ (by rw [hpre, hsaid]) (by rw [hpre', hheard])
  have hvacant (hlogout : Request.isLogout text = true) :
      d₁.Vacant (.new [.base64] server none) := by
    rw [hlogout, if_pos rfl] at hp₁
    exact .inr ⟨by rw [hp₁]; trivial, _, _, hd₁⟩
  cases hcall : x.call with
  | login name => rw [hcall] at ht; cases ht
  | logout =>
    rw [hcall] at ht hc₁
    obtain rfl := Option.some.inj ht
    refine .agreed (by rw [hcall]; rfl) h₂ ?_
    rw [hc₁]
    exact .out (hvacant (by decide))
  | request line =>
    rw [hcall] at ht hc₁
    obtain rfl := Option.some.inj ht
    rw [Call.after_request] at hc₁
    cases hlogout : Request.isLogout line with
    | true =>
      refine .parted (by rw [hcall]; exact hlogout) h₂ ?_
      rw [hc₁]
      exact .intro _ _ (hvacant hlogout)
    | false =>
      rw [hlogout, if_neg (by simp)] at hp₁
      refine .agreed (by rw [hcall]; exact hlogout) h₂ ?_
      rw [hc₁]
      exact .within (.inl hp₁) hd₁

theorem InStep.call_within (hs : CipherSuite.Lawful)
    (h : Ahead client server store limit d' (x :: xs) d ds) {secrets : Secrets} {n m : Nat}
    {identity : String} (hp : d.phase = .serving identity ∨ d.phase = .binding identity)
    (hd : d.session = (Session.new [.base64] server none).enter
      ⟨⟨secrets, .responder, m, n⟩, [.base64], identity⟩)
    (hc : c.session = (Session.new [.base64] client (some server.publicKey)).enter
      ⟨⟨secrets, .initiator, n, m⟩, [.base64], identity⟩)
    (hr : (c.call x.call).Runs x.events (x.result, c₁)) :
    Comes client server store limit d' x xs c₁.session d ds := by
  cases ht : x.call.text? with
  | none =>
    obtain ⟨name, hcall⟩ := Call.eq_login ht
    rw [hcall] at hr
    obtain ⟨hx, ⟨e, he⟩, rfl⟩ := runs_login_refused (by rw [hc]; simp [Session.enter]) hr
    exact .idle e he (h.idle hx) (hc ▸ .within hp hd)
  | some text =>
    have htraffic := traffic_of_runs hs rfl hc ht hr
    have hsound := (sound_append.1 h.punctual.sound).1
    generalize hevents : x.events = es, hresult : x.result = r, hc₁ : c₁.session = session
      at htraffic hsound
    cases htraffic with
    | silent e => exact .idle e hresult (h.idle hevents) (.within hp hd)
    | lost line e e' => exact absurd trivial (sound_cons.1 hsound).1
    | unanswered wait e e' hline =>
      exact absurd trivial (sound_cons.1 (sound_cons.1 hsound).2).1
    | garbled wait e cipher' hline hnone =>
      rw [← hc₁]
      exact InStep.call_answered hs h hp hd ht (by rw [hevents]; rfl) (by rw [hevents]; rfl) hline
        (.inl hnone)
    | answered wait hline hanswer =>
      rw [← hc₁]
      exact InStep.call_answered hs h hp hd ht (by rw [hevents]; rfl) (by rw [hevents]; rfl) hline
        (.inr hc₁)

/-- **One call.** -/
theorem InStep.call (hs : CipherSuite.Lawful) (hstep : InStep client server c.session d)
    (h : Ahead client server store limit d' (x :: xs) d ds)
    (hr : (c.call x.call).Runs x.events (x.result, c₁)) :
    Comes client server store limit d' x xs c₁.session d ds := by
  generalize hc : c.session = session at hstep
  cases hstep with
  | out hv => exact InStep.call_out hs h hv hc hr
  | within hp hd => exact InStep.call_within hs h hp hd hc hr

/-! ## All calls -/

/-- Once both ends have parted, every call fails. -/
theorem Parted.calls (hs : CipherSuite.Lawful) (hcalls : Calls c xs c')
    (hparted : Parted client server c.session d) (h : Ahead client server store limit d' xs d ds) :
    ∀ x ∈ xs, ∃ e, x.result = .error e := by
  induction hcalls with
  | nil => exact List.forall_mem_nil _
  | @cons c c₁ c' x xs hr _ ih =>
    generalize hc : c.session = session at hparted
    obtain ⟨cipher, identity, hv⟩ := hparted
    obtain ⟨he, ⟨hx, hc₁⟩ | ⟨-, hsound, -⟩⟩ :=
      call_of_parted hs h.serves hv h.linked h.fair hc hr
    · have hparted : Parted client server c₁.session d := by
        rw [hc₁, hc]
        exact .intro cipher identity hv
      exact List.forall_mem_cons.2 ⟨he, ih hparted (h.idle hx)⟩
    · exact absurd (sound_append.1 h.punctual.sound).1 hsound

/-- **All calls.** If the last call has succeeded, then both ends are in step, or that call was a
request for a logout. -/
theorem InStep.calls (hs : CipherSuite.Lawful) (hcalls : Calls c xs c')
    (hstep : InStep client server c.session d) (h : Ahead client server store limit d' xs d ds)
    (hx : xs.getLast? = some x) {reply : String} (hok : x.result = .ok reply) :
    ∃ d₁ ds₁, Ahead client server store limit d' [] d₁ ds₁ ∧
      (x.call.asksLogout = false ∧ InStep client server c'.session d₁ ∨
        x.call.asksLogout = true ∧ Parted client server c'.session d₁) := by
  induction hcalls generalizing d ds with
  | nil => cases hx
  | @cons c c₁ c' y xs hr hcalls ih =>
    have hlast : xs = [] ∧ y = x ∨ x ∈ xs ∧ xs.getLast? = some x := by
      cases xs with
      | nil => exact .inl ⟨rfl, Option.some.inj hx⟩
      | cons z xs =>
        rw [List.getLast?_cons_cons] at hx
        exact .inr ⟨List.mem_of_getLast? hx, hx⟩
    -- a call that has failed is not the last one, and one that fails for good is the last success
    have hfailed (he : ∀ z ∈ xs, ∃ e, z.result = .error e) : xs = [] ∧ y = x := by
      refine hlast.resolve_right fun hmem => ?_
      obtain ⟨e, he⟩ := he x hmem.1
      rw [hok] at he
      cases he
    rcases hstep.call hs h hr with ⟨e, he, hc₁⟩ | ⟨e, he, h₁, hstep₁⟩ | ⟨hasks, h₁, hstep₁⟩ |
      ⟨hasks, h₁, hparted⟩
    · obtain ⟨-, rfl⟩ := hfailed fun z hz => (hcalls.of_shut hc₁ z hz).2
      rw [hok] at he
      cases he
    · rcases hlast with ⟨-, rfl⟩ | ⟨-, hlast⟩
      · rw [hok] at he
        cases he
      · exact ih hstep₁ h₁ hlast
    · rcases hlast with ⟨rfl, rfl⟩ | ⟨-, hlast⟩
      · cases hcalls
        exact ⟨_, _, h₁, .inl ⟨hasks, hstep₁⟩⟩
      · exact ih hstep₁ h₁ hlast
    · obtain ⟨rfl, rfl⟩ := hfailed (hparted.calls hs hcalls h₁)
      cases hcalls
      exact ⟨_, _, h₁, .inr ⟨hasks, hparted⟩⟩

/-! ## Once the connection is done -/

/-- Nobody logs in where nothing is heard. -/
theorem Ahead.out (h : Ahead client server store limit d' [] d ds) (hwaits : d'.phase.IsWaiting)
    (hv : d.Vacant (.new [.base64] server none)) : d'.session = .new [.base64] server none := by
  rcases h.serves.of_vacant rfl hv with ⟨-, -, -, hleaving⟩ |
    ⟨pre, d₁, ds₁, rfl, h₁, hevents, -, hd₁, again, hp₁⟩
  · cases hp : d'.phase <;> rw [hp] at hwaits hleaving <;> cases hwaits <;> cases hleaving
  have harrived := h.punctual.arrived
  have hsound := h.punctual.sound'
  rw [Connection.events_append, hevents] at harrived hsound
  obtain ⟨-, rfl⟩ := h₁.still (s := d₁.session) (.inl ⟨server, again, hp₁, hd₁⟩) harrived hsound
  exact hd₁

/-- Who is logged in stays so where nothing is heard. -/
theorem Ahead.within (h : Ahead client server store limit d' [] d ds) (hwaits : d'.phase.IsWaiting)
    {cipher : SessionCipher} {identity : String}
    (hp : d.phase = .serving identity ∨ d.phase = .binding identity)
    (hd : d.session = (Session.new [.base64] server none).enter ⟨cipher, [.base64], identity⟩) :
    d'.session = (Session.new [.base64] server none).enter ⟨cipher, [.base64], identity⟩ := by
  have harrived := h.punctual.arrived
  have hsound := h.punctual.sound'
  have haccepted := h.punctual.accepted
  rcases hp with hp | hp
  · obtain ⟨-, rfl⟩ := h.serves.still (.inr ⟨cipher, identity, hp, hd⟩) harrived hsound
    exact hd
  rcases h.serves.of_binding hp with ⟨-, -, rfl⟩ |
    ⟨d₁, ds₁, rfl, h₁, hd₁, ⟨hp₁, hnote⟩ | ⟨-, hnote⟩⟩
  · rw [hp] at hwaits
    exact hwaits.elim
  · obtain ⟨-, rfl⟩ := h₁.still (.inr ⟨cipher, identity, hp₁, hd₁.trans hd⟩) harrived hsound
    exact hd₁.trans hd
  · rw [Connection.notes_cons_some hnote] at haccepted
    exact absurd List.mem_cons_self haccepted

/-- **Both ends agree on who is logged in.** When a call has succeeded and the connection is done with
it, both ends name the same principal or none; except when the call was a request that asks for a
logout: then somebody is logged in at the client, and nobody at the connection. -/
theorem stages_agree (hs : CipherSuite.Lawful) (h : Talks client server store limit c' d' xs ds [])
    (hpunctual : Punctual xs ds) (hwaits : d'.phase.IsWaiting) (hx : xs.getLast? = some x)
    {reply : String} (hok : x.result = .ok reply) :
    if x.call.asksLogout then c'.session.identity ≠ none ∧ d'.session.identity = none
    else c'.session.stage.name = d'.session.stage.name ∧
      c'.session.identity = d'.session.identity := by
  obtain ⟨settings, hcalls⟩ := h.calls
  obtain ⟨id, hserves⟩ := h.serves
  have hstep : InStep client server (new settings client server.publicKey).session
      (.new id server) := .out (.inl ⟨rfl, false, rfl⟩)
  obtain ⟨d₁, ds₁, h₁, ⟨hasks, hstep₁⟩ | ⟨hasks, hparted⟩⟩ :=
    hstep.calls hs hcalls ⟨hserves, h.linked, h.fair, hpunctual⟩ hx hok
  · rw [hasks, if_neg (by simp)]
    generalize c'.session = session at hstep₁
    cases hstep₁ with
    | out hv =>
      rw [h₁.out hwaits hv]
      exact ⟨rfl, rfl⟩
    | within hp hd =>
      rw [h₁.within hwaits hp hd]
      exact ⟨rfl, rfl⟩
  · rw [hasks, if_pos rfl]
    generalize c'.session = session at hparted
    obtain ⟨cipher, identity, hv⟩ := hparted
    rw [h₁.out hwaits hv]
    exact ⟨by simp [Session.identity, Session.enter], rfl⟩

omit [CipherSuite] in
/-- A login. -/
theorem stages_agree_of_login : ∃ (suite : CipherSuite) (client server : PrivateKey)
    (store : KeyStore) (limit : Duration) (c' : Client) (d' : Connection) (x : Entry)
    (ds : List Deed), suite = .between client.block server.block ∧ x.call = .login "alice" ∧
    x.result = .ok "alice" ∧ Talks client server store limit c' d' [x] ds [] ∧ Punctual [x] ds ∧
    d'.phase.IsWaiting ∧ c'.session.identity = some "alice" ∧
    d'.session.identity = some "alice" := by
  let client : PrivateKey := ⟨.zero 32⟩
  let server : PrivateKey := ⟨.ofPrefix 32 [1]⟩
  let suite := CipherSuite.between client.block server.block
  let store := KeyRing.toStore ⟨[("alice", client.publicKey)]⟩
  let limit : Duration := .ofSeconds 10
  have hs : CipherSuite.Lawful := CipherSuite.lawful_between client.block server.block
  have hfind : store.find "alice" = .ok client.publicKey := rfl
  obtain ⟨secrets, es, ds, c, d, hlogin, hc, hserves, hd, hp, hheard, hsaid, hnotes, hspoken, hsound,
    hsound'⟩ := exists_bound server hs (by decide) hfind {} 1 limit (.new ⟨[]⟩) rfl
  let x : Entry := ⟨.login "alice", es, .ok "alice"⟩
  have hevents : events [x] = es := List.append_nil es
  have hlost : ∀ e ∈ events [x], ¬e.Lost := by
    rw [hevents]
    exact fun e he hlost => hsound e he hlost.failed
  have htalks : Talks client server store limit c d [x] ds [] := by
    refine ⟨⟨{}, .cons hlogin (.nil c)⟩, ⟨1, hserves⟩, ⟨?_, ?_⟩, fair_of_short ?_ hlost ?_ ?_⟩
    · simp [hevents, hheard]
    · simp [hevents, hsaid]
    · simp [x, hfind]
    · simp [x, Entry.spoken, Call.text?]
    · simp [hspoken]
  have hpunctual : Punctual [x] ds :=
    ⟨by rw [hevents, hheard], by rwa [hevents], hsound', by simp [hnotes]⟩
  have hwaits : d.phase.IsWaiting := by
    rw [hp]
    trivial
  have hok : x.result = .ok "alice" := rfl
  have hagree := stages_agree hs htalks hpunctual hwaits rfl hok
  have hidentity : c.session.identity = some "alice" := by
    rw [hc]
    rfl
  exact ⟨suite, client, server, store, limit, c, d, x, ds, rfl, rfl, rfl, htalks, hpunctual, hwaits,
    hidentity, hagree.2.symm.trans hidentity⟩

omit [CipherSuite] in
/-- A request for a logout. The connection has nobody logged in any more, and the client has not left
its session. -/
theorem stages_of_logout_request : ∃ (suite : CipherSuite) (client server : PrivateKey)
    (store : KeyStore) (limit : Duration) (c' : Client) (d' : Connection) (xs : List Entry)
    (ds : List Deed), suite = .between client.block server.block ∧
    Talks client server store limit c' d' xs ds [] ∧ Punctual xs ds ∧ d'.phase.IsWaiting ∧
    xs.map (fun x => (x.call, x.result)) = [(.login "alice", .ok "alice"),
      (.request "!logout", .ok "Successfully logged out.")] ∧
    c'.session.stage.name = "Authenticated" ∧ c'.session.identity = some "alice" ∧
    d'.session.stage.name = "Unauthenticated" ∧ d'.session.identity = none := by
  let client : PrivateKey := ⟨.zero 32⟩
  let server : PrivateKey := ⟨.ofPrefix 32 [1]⟩
  let suite := CipherSuite.between client.block server.block
  let store := KeyRing.toStore ⟨[("alice", client.publicKey)]⟩
  let hub : Hub := .new ⟨[]⟩
  let limit : Duration := .ofSeconds 10
  have hs : CipherSuite.Lawful := CipherSuite.lawful_between client.block server.block
  have hfind : store.find "alice" = .ok client.publicKey := rfl
  have hk : ∀ n < 2, n < SessionCrypt.directionBit := by decide
  have hfits : ChaChaPoly.fits (Utf8.encode "!logout").length := by decide
  obtain ⟨secrets, es, pre, c, d, hlogin, hc, hserves, hd, hp, hheard, hsaid, hnotes, hspoken, hsound,
    hsound'⟩ := exists_bound server hs (by decide) hfind {} 1 limit hub rfl
  obtain ⟨q, hq, hlen, hanswered, -⟩ := exists_runs_request hs hc (hk 1 (by decide)) hfits
  obtain ⟨pre', d', a, hserves', hevents, hnotes', hspoken', hlen', ha, hd', hp'⟩ :=
    Connection.exists_serves_logout store limit hs rfl hp hd hq (by decide) hub (hk 0 (by decide))
  have hrequest := hanswered a "Successfully logged out." ha
  let xs : List Entry := [⟨.login "alice", es, .ok "alice"⟩, ⟨.request "!logout",
    [.sent q (.ok ()), .received (some c.responseTimeout) (.ok a)], .ok "Successfully logged out."⟩]
  have hcalls : Calls (new {} client server.publicKey) xs _ :=
    .cons hlogin (.cons hrequest (.nil _))
  have hlost : ∀ e ∈ events xs, ¬e.Lost := by
    refine List.forall_mem_append.2 ⟨fun e he hlost => hsound e he hlost.failed, ?_⟩
    simp [Event.Lost]
  have hquestions : spoken xs = [q] := rfl
  refine ⟨suite, client, server, store, limit, _, d', xs, pre ++ pre', rfl,
    ⟨⟨{}, hcalls⟩, ⟨1, hserves.append hserves'⟩, ⟨?_, ?_⟩, fair_of_short ?_ hlost ?_ ?_⟩,
    ⟨?_, ?_, ?_, ?_⟩, ?_, rfl, rfl, rfl, by rw [hd']; rfl, by rw [hd']; rfl⟩
  · simp [xs, hheard, hevents]
  · simp [xs, hsaid, hevents]
  · simp [xs, hfind]
  · rw [hquestions, List.forall_mem_singleton, hlen]
    decide
  · rw [Connection.spoken_append, hspoken, hspoken', List.nil_append, List.forall_mem_singleton, hlen']
    decide
  · simp [xs, hheard, hevents]
  · exact sound_append.2 ⟨hsound, by simp [sound_cons, sound_nil, Event.Failed]⟩
  · rw [Connection.events_append, hevents]
    exact sound_append.2 ⟨hsound', by simp [sound_cons, sound_nil, Event.Failed]⟩
  · simp [hnotes, hnotes']
  · rw [hp']
    trivial

end Client

end SealedChat
