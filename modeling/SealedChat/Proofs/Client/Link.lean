import SealedChat.Proofs.Client.Calls
import SealedChat.Proofs.Handshake.Meeting
import SealedChat.Proofs.Server.Serving
import SealedChat.Proofs.Session.Talk

/-!
# A client and a connection on one line

Somebody calls a client, and at the other end a connection of a server goes on step by step. Nothing is
known of the line but that it keeps the order: what either end has heard is the beginning of what the
other has said (`Linked`). Some of the client's lines may be under way to the connection.

* A login that succeeds at the client has met a connection that answers it (`meet_login`).
* The next answer of a connection in a session belongs to the first line under way (`meet_answer`).
* Where only the client is in a session, nothing comes back (`call_of_parted`).
-/

namespace SealedChat.Client

open Dialogue
open Connection (Deed Note Serves)

/-! ## The line between them -/

/-- What either end hears is what the other says, in order. `lines` are on their way to the
connection. -/
structure Linked (lines : List Bytes) (xs : List Entry) (ds : List Deed) (cur : List Event) :
    Prop where
  toServer : heard (Connection.events ds ++ cur) <+: lines ++ said (events xs)
  toClient : heard (events xs) <+: said (Connection.events ds ++ cur)

section

variable {lines lines' : List Bytes} {x : Entry} {xs : List Entry} {ds : List Deed}
  {cur : List Event}

theorem Linked.tail (pre : List Deed) (h : Linked lines (x :: xs) (pre ++ ds) cur)
    (hin : heard (Connection.events pre) ++ lines' = lines ++ said x.events)
    (hout : said (Connection.events pre) = heard x.events) : Linked lines' xs ds cur where
  toServer := by
    have h' := h.toServer
    rw [Connection.events_append, List.append_assoc, heard_append, events_cons, said_append,
      ← List.append_assoc, ← hin, List.append_assoc] at h'
    exact (List.prefix_append_right_inj _).1 h'
  toClient := by
    have h' := h.toClient
    rw [Connection.events_append, List.append_assoc, said_append, events_cons, heard_append,
      hout] at h'
    exact (List.prefix_append_right_inj _).1 h'

variable [CipherSuite] {client server : PrivateKey} {store : KeyStore}

/-- What is taken for granted of a run: whoever logs in has the key that the server knows for that
name, a line that has failed once is not used any more, and no line of a session is taken for one of a
handshake. -/
structure Fair (client server : PrivateKey) (store : KeyStore) (lines : List Bytes)
    (xs : List Entry) (ds : List Deed) : Prop where
  known : ∀ x ∈ xs, ∀ identity, x.call = .login identity → x.result = .ok identity →
    store.find identity = .ok client.publicKey
  broken : (events xs).Pairwise fun e e' => e.Lost → e'.said? = none
  greeting : ∀ line ∈ lines ++ spoken xs, ∀ identity ca,
    ¬Handshake.Introduces server line identity ca
  echo : ∀ line ∈ Connection.spoken ds, ∀ ca cb secrets,
    ¬Handshake.Echoes client line ca cb secrets

theorem Fair.tail (pre : List Deed) (h : Fair client server store lines (x :: xs) (pre ++ ds))
    (hlines : ∀ line ∈ lines', line ∈ lines ∨ line ∈ x.spoken) :
    Fair client server store lines' xs ds where
  known y hy := h.known y (List.mem_cons_of_mem x hy)
  broken := (List.pairwise_append.1 h.broken).2.1
  greeting line hline := by
    refine h.greeting line ?_
    rw [spoken_cons]
    rcases List.mem_append.1 hline with hline | hline
    · rcases hlines line hline with hline | hline
      · exact List.mem_append_left _ hline
      · exact List.mem_append_right _ (List.mem_append_left _ hline)
    · exact List.mem_append_right _ (List.mem_append_right _ hline)
  echo line hline := by
    refine h.echo line ?_
    rw [Connection.spoken_append]
    exact List.mem_append_right _ hline

/-- Behind a line that was lost nothing is said. -/
theorem Fair.said_of_lost (h : Fair client server store lines (x :: xs) ds) {e : Event}
    (he : e ∈ x.events) (hlost : e.Lost) : said (events xs) = [] := by
  have hpair := (List.pairwise_append.1 h.broken).2.2 e he
  exact List.filterMap_eq_nil_iff.2 fun e' he' => hpair e' he' hlost

end

variable [CipherSuite] {client server : PrivateKey} {store : KeyStore} {limit : Duration}
  {cur : List Event} {c c₁ c' : Client} {d d' : Connection} {x : Entry} {xs : List Entry}
  {ds : List Deed} {lines lines' : List Bytes} {text : String} {texts : List String}
  {identity : String}

/-- A client on a new line to a server, and the connection at the other end. -/
structure Talks (client server : PrivateKey) (store : KeyStore) (limit : Duration) (c' : Client)
    (d' : Connection) (xs : List Entry) (ds : List Deed) (cur : List Event) : Prop where
  calls : ∃ settings, Calls (new settings client server.publicKey) xs c'
  serves : ∃ id, Serves store limit (.new id server) ds cur d'
  linked : Linked [] xs ds cur
  fair : Fair client server store [] xs ds

/-! ## What the client meets -/

/-- A login that succeeds at the client is one that the connection answers. Either the connection says
nothing more, and not because the confirmation was bad, or it has logged in the client. -/
theorem meet_login (hs : CipherSuite.Lawful) (h : Serves store limit d ds cur d')
    (hv : d.Vacant (.new [.base64] server none)) {hello reply confirm : Bytes} {ca cb : Challenge}
    {secrets : Secrets} (hi : Principal.IsValid identity)
    (hgreets : Handshake.Greets server.publicKey hello identity ca)
    (hechoes : Handshake.Echoes client reply ca cb secrets)
    (hreturns : Handshake.Returns secrets confirm cb)
    (hf : store.find identity = .ok client.publicKey)
    (hin : heard (Connection.events ds ++ cur) <+: hello :: confirm :: lines)
    (hout : reply :: lines' <+: said (Connection.events ds ++ cur)) :
    (lines' = [] ∧ (cur = [] → Sound (Connection.events ds ++ cur) → ∀ rest,
      heard (Connection.events ds ++ cur) ≠ hello :: confirm :: rest)) ∨
    ∃ pre d₁ ds₁, ds = pre ++ ds₁ ∧ Serves store limit d₁ ds₁ cur d' ∧
      heard (Connection.events pre) = [hello, confirm] ∧ said (Connection.events pre) = [reply] ∧
      Connection.notes pre = [] ∧
      d₁.session = (Session.new [.base64] server none).enter
        ⟨⟨secrets, .responder, 0, 1⟩, [.base64], identity⟩ ∧ d₁.phase = .binding identity := by
  rcases h.of_vacant rfl hv with ⟨hevents, rfl, -⟩ |
    ⟨pre, d₁, ds₁, rfl, h₁, hevents, hnotes, hd₁, again, hp⟩
  · rw [hevents] at hout
    simp at hout
  rw [Connection.events_append, hevents, List.nil_append] at hin hout ⊢
  rcases h₁.of_handshake hp hd₁ with hsaid |
    ⟨hello', line, name, ca', cb', key, secrets', hw, hgo⟩
  · rw [hsaid] at hout
    simp at hout
  -- the first lines are the same on both sides, so they say the same
  have hfirst : (∃ rest, heard (Connection.events ds₁ ++ cur) = hello' :: rest) ∧
      ∃ rest, said (Connection.events ds₁ ++ cur) = line :: rest := by
    rcases hgo with ⟨hsaid, hheard, -⟩ | ⟨_, es, d₂, ds₂, rfl, -, hheard, hsaid, -⟩
    · exact ⟨hheard, [], hsaid⟩
    · rw [Connection.events_cons, List.append_assoc, heard_append, said_append, hheard, hsaid]
      exact ⟨⟨_, rfl⟩, _, rfl⟩
  obtain ⟨⟨_, hheard⟩, _, hsaid⟩ := hfirst
  obtain rfl : hello' = hello := by
    rw [hheard] at hin
    exact (List.cons_prefix_cons.1 hin).1
  obtain rfl : reply = line := by
    rw [hsaid] at hout
    exact (List.cons_prefix_cons.1 hout).1
  obtain ⟨rfl, rfl⟩ := hw.introduces.unique hw.isValid hi (hgreets.introduces hs)
  obtain rfl : key = client.publicKey := Except.ok.inj (hw.find.symm.trans hf)
  obtain ⟨rfl, rfl⟩ := (hw.discloses.echoes hs).unique hechoes
  rcases hgo with ⟨hsaid', -, hstop⟩ | ⟨confirm', es, d₂, ds₂, rfl, h₂, hheard', hsaid', hnote, -,
    -, hd₂, hp₂⟩
  · left
    rw [hsaid', List.cons_prefix_cons] at hout
    refine ⟨List.prefix_nil.1 hout.2, fun hcur hsound rest hrest => ?_⟩
    exact hstop hcur hsound confirm rest hrest (hreturns.confirms hs)
  · right
    obtain rfl : confirm' = confirm := by
      rw [Connection.events_cons, List.append_assoc, heard_append, hheard'] at hin
      exact (List.cons_prefix_cons.1 (List.cons_prefix_cons.1 hin).2).1
    refine ⟨pre ++ [⟨d₁, es, d₂⟩], d₂, ds₂, by simp, h₂, ?_, ?_, ?_, hd₂, hp₂⟩
    · simp [hevents, hheard']
    · simp [hevents, hsaid']
    · rw [Connection.notes_append, hnotes, Connection.notes_cons_none hnote]
      rfl

/-- The next answer of the connection belongs to the first line on its way. -/
theorem meet_answer (hs : CipherSuite.Lawful) (h : Serves store limit d ds cur d') {secrets : Secrets}
    {sent received turn : Nat} (hp : d.phase = .serving identity ∨ d.phase = .binding identity)
    (hd : d.session = (Session.new [.base64] server none).enter
      ⟨⟨secrets, .responder, received, turn⟩, [.base64], identity⟩) {question answer : Bytes}
    (hdel : Session.Delivers ⟨secrets, .initiator, sent, received⟩
      ⟨secrets, .responder, received, turn⟩ ((text :: texts).map Utf8.encode) (question :: lines))
    {later : List Bytes}
    (hin : heard (Connection.events ds ++ cur) <+: (question :: lines) ++ later)
    (hout : answer :: lines' <+: said (Connection.events ds ++ cur)) :
    (lines' = [] ∧ Connection.notes ds = [.refused] ∧
      Enciphers secrets .responder received (Utf8.encode ChatError.alreadyLoggedInText) answer) ∨
    ∃ pre d₁ ds₁ reply note, ds = pre ++ ds₁ ∧ Serves store limit d₁ ds₁ cur d' ∧
      heard (Connection.events pre) = [question] ∧ said (Connection.events pre) = [answer] ∧
      Connection.notes pre = [note] ∧ note.Tells text reply ∧
      Enciphers secrets .responder received (Utf8.encode reply) answer ∧
      Session.Delivers ⟨secrets, .initiator, sent, received + 1⟩
        ⟨secrets, .responder, received + 1, turn + 1⟩ (texts.map Utf8.encode) lines ∧
      d₁.session = (Session.new [.base64] server none).enter
        ⟨⟨secrets, .responder, received + 1, turn + 1⟩, [.base64], identity⟩ ∧
      d₁.phase = if Request.isLogout text then .unbinding identity else .serving identity := by
  rcases h.next_answer hs hp hd with hsaid | ⟨pre, ds₁, d₁, question', answer', text', reply, rfl, h₁,
    hround⟩ | ⟨answer', hsaid, hnotes, hrefused⟩
  · rw [hsaid] at hout
    simp at hout
  · right
    rw [Connection.events_append, List.append_assoc] at hin hout
    rw [heard_append, hround.heard] at hin
    obtain rfl : question' = question := (List.cons_prefix_cons.1 hin).1
    rw [said_append, hround.said] at hout
    obtain rfl : answer = answer' := (List.cons_prefix_cons.1 hout).1
    obtain ⟨_, _, heq, hquestion, hdel'⟩ := hdel.receive
    obtain ⟨rfl, rfl⟩ := List.cons.inj heq
    obtain rfl : text = text' :=
      Utf8.encode_injective (hquestion.unique hround.question)
    obtain ⟨note, hnote, htells⟩ := hround.note
    exact ⟨pre, d₁, ds₁, reply, note, rfl, h₁, hround.heard, hround.said, hnote, htells,
      hround.answer, ⟨hdel'.sent, hdel'.length, hdel'.enciphers⟩, hround.session, hround.phase⟩
  · left
    rw [hsaid] at hout
    obtain ⟨rfl, hnil⟩ := List.cons_prefix_cons.1 hout
    exact ⟨List.prefix_nil.1 hnil, hnotes, hrefused⟩

/-- What comes first on the way to a connection where nobody is logged in keeps it silent, unless it is
a greeting. -/
theorem heard_of_vacant (h : Serves store limit d ds cur d')
    (hv : d.Vacant (.new [.base64] server none)) (hlinked : Linked lines xs ds cur) {line : Bytes}
    {rest : List Bytes} (hfirst : lines ++ said (events xs) = line :: rest)
    (hline : ∀ identity ca, ¬Handshake.Introduces server line identity ca) :
    heard (events xs) = [] := by
  have hin := hlinked.toServer
  rw [hfirst] at hin
  have hout := hlinked.toClient
  rw [h.mute hv hline hin] at hout
  exact List.prefix_nil.1 hout

/-- In a session that the connection has left, a call fails. It does nothing, or a line is lost, or
nothing comes back any more. -/
theorem call_of_parted (hs : CipherSuite.Lawful) (h : Serves store limit d ds cur d')
    (hv : d.Vacant (.new [.base64] server none)) (hlinked : Linked [] (x :: xs) ds cur)
    (hfair : Fair client server store [] (x :: xs) ds) {cipher : SessionCipher}
    (hc : c.session = (Session.new [.base64] client (some server.publicKey)).enter
      ⟨cipher, [.base64], identity⟩)
    (hr : (c.call x.call).Runs x.events (x.result, c₁)) :
    (∃ e, x.result = .error e) ∧ (x.events = [] ∧ c₁.session = c.session ∨
      Stands (.new [.base64] client (some server.publicKey)) c₁.session ∧ ¬Sound x.events ∧
        (said (events xs) = [] ∨ heard (events xs) = [])) := by
  cases hx : x.call.text? with
  | none =>
    obtain ⟨name, hcall⟩ := Call.eq_login hx
    rw [hcall] at hr
    obtain ⟨hevents, he, rfl⟩ := runs_login_refused (by rw [hc]; simp [Session.enter]) hr
    exact ⟨he, .inl ⟨hevents, rfl⟩⟩
  | some text =>
    have htraffic := traffic_of_runs hs rfl hc hx hr
    have hmute (line : Bytes) (hsaid : said x.events = [line]) :
        heard x.events = [] ∧ heard (events xs) = [] := by
      have hspoken : line ∈ [] ++ spoken (x :: xs) := by
        rw [spoken_cons, Entry.spoken, if_neg (by simp [hx]), hsaid]
        simp
      have hfirst : [] ++ said (events (x :: xs)) = line :: said (events xs) := by
        rw [events_cons, said_append, hsaid]
        rfl
      have hheard := heard_of_vacant h hv hlinked hfirst (hfair.greeting line hspoken)
      rw [events_cons, heard_append] at hheard
      exact List.append_eq_nil_iff.1 hheard
    have hstands (cipher : SessionCipher) : Stands (.new [.base64] client (some server.publicKey))
        ((Session.new [.base64] client (some server.publicKey)).enter
          ⟨cipher, [.base64], identity⟩) := .within cipher identity
    generalize hevents : x.events = es, hresult : x.result = r, hc₁ : c₁.session = session
      at htraffic hmute
    cases htraffic with
    | silent e => exact ⟨⟨e, rfl⟩, .inl ⟨rfl, hc.symm⟩⟩
    | lost line e e' =>
      have hlost : Event.sent line (.error e) ∈ x.events := hevents ▸ List.mem_singleton_self _
      exact ⟨⟨e', rfl⟩, .inr ⟨hstands _, fun hsound => hsound _ (List.mem_singleton_self _) trivial,
        .inl (hfair.said_of_lost hlost trivial)⟩⟩
    | unanswered wait e e' hline =>
      exact ⟨⟨e', rfl⟩, .inr ⟨hstands _, fun hsound => (sound_cons.1 (sound_cons.1 hsound).2).1 trivial,
        .inr (hmute _ rfl).2⟩⟩
    | garbled wait e cipher' hline hnone => cases (hmute _ rfl).1
    | answered wait hline hanswer => cases (hmute _ rfl).1

/-! ## Such lines are possible -/

/-- Lines that are short are not taken for those of a handshake. -/
theorem fair_of_short (hknown : ∀ x ∈ xs, ∀ identity, x.call = .login identity →
      x.result = .ok identity → store.find identity = .ok client.publicKey)
    (hlost : ∀ e ∈ events xs, ¬e.Lost) (hshort : ∀ line ∈ spoken xs, line.length < 80)
    (hshort' : ∀ line ∈ Connection.spoken ds, line.length < 80) :
    Fair client server store [] xs ds where
  known := hknown
  broken := List.pairwise_of_forall_mem_list fun e he _ _ h => absurd h (hlost e he)
  greeting line hline _ _ h := Nat.not_lt_of_le h.length_le (hshort line hline)
  echo line hline _ _ _ h := Nat.not_lt_of_le h.length_le (hshort' line hline)

/-- A login that succeeds at both ends. -/
theorem exists_logged_in (server : PrivateKey) (hs : CipherSuite.Lawful)
    (hi : Principal.IsValid identity) (hf : store.find identity = .ok client.publicKey)
    (settings : ClientSettings) (id : ConnectionId) (limit : Duration) (hub : Hub) :
    ∃ secrets es pre c d,
      ((new settings client server.publicKey).call (.login identity)).Runs es (.ok identity, c) ∧
      c.session = (Session.new [.base64] client (some server.publicKey)).enter
        ⟨⟨secrets, .initiator, 1, 0⟩, [.base64], identity⟩ ∧
      Serves store limit (.new id server) pre [] d ∧
      d.session = (Session.new [.base64] server none).enter
        ⟨⟨secrets, .responder, 0, 1⟩, [.base64], identity⟩ ∧
      d.phase = .binding identity ∧ heard (Connection.events pre) = said es ∧
      said (Connection.events pre) = heard es ∧ Connection.notes pre = [] ∧
      Connection.spoken pre = [] ∧ Sound es ∧ Sound (Connection.events pre) := by
  obtain ⟨secrets, hello, reply, confirm, es, es', hinitiate, hrespond, hsaid, hheard, hsaid',
    hheard', hsound, hsound'⟩ := Handshake.exists_login server hs hi hf (some limit)
      settings.handshakeTimeout limit
  refine ⟨secrets, es, [⟨.new id server, es', _⟩], _, _, runs_login_ok rfl hinitiate, rfl,
    Connection.serves_handshake store limit rfl rfl hrespond hub, rfl, rfl, ?_, ?_, rfl, rfl, hsound,
    ?_⟩
  · simp [hheard', hsaid]
  · simp [hsaid', hheard]
  · simpa using hsound'

/-- A login that succeeds at both ends, of somebody who is not online yet. -/
theorem exists_bound (server : PrivateKey) (hs : CipherSuite.Lawful)
    (hi : Principal.IsValid identity) (hf : store.find identity = .ok client.publicKey)
    (settings : ClientSettings) (id : ConnectionId) (limit : Duration) (hub : Hub)
    (hfree : hub.table.isOnline identity = false) : ∃ secrets es pre c d,
      ((new settings client server.publicKey).call (.login identity)).Runs es (.ok identity, c) ∧
      c.session = (Session.new [.base64] client (some server.publicKey)).enter
        ⟨⟨secrets, .initiator, 1, 0⟩, [.base64], identity⟩ ∧
      Serves store limit (.new id server) pre [] d ∧
      d.session = (Session.new [.base64] server none).enter
        ⟨⟨secrets, .responder, 0, 1⟩, [.base64], identity⟩ ∧
      d.phase = .serving identity ∧ heard (Connection.events pre) = said es ∧
      said (Connection.events pre) = heard es ∧ Connection.notes pre = [] ∧
      Connection.spoken pre = [] ∧ Sound es ∧ Sound (Connection.events pre) := by
  obtain ⟨secrets, es, pre, c, d, hlogin, hc, hserves, hd, hp, hheard, hsaid, hnotes, hspoken, hsound,
    hsound'⟩ := exists_logged_in server hs hi hf settings id limit hub
  let bound : Connection := { d with phase := .serving identity }
  have hbind : (d.bind identity hub).2 = bound := by
    simp only [Connection.bind, SessionTable.bind, hfree, bound]
    rfl
  have hbound := hbind ▸ Connection.serves_binding store limit hp hub
  refine ⟨secrets, es, pre ++ [⟨d, [], bound⟩], c, bound, hlogin, hc, hserves.append hbound, hd, rfl,
    ?_, ?_, ?_, ?_, hsound, ?_⟩
  · simpa using hheard
  · simpa using hsaid
  · rw [Connection.notes_append, hnotes]
    simp [Connection.notes, Deed.note?, hp, bound]
  · simp [hspoken, Deed.spoken, hp]
  · simpa using hsound'

end SealedChat.Client
