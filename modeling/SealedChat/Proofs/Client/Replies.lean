import SealedChat.Proofs.Client.Link

/-!
# Replies come in the order of the requests

A client and a connection of a server on one line that keeps the order. Lines may be under way for any
time, so calls may give up before their reply is there, and the connection may be far behind.

**The state** (`Meets`), seen between two calls: the connection has gone just as far as the client has
heard, and the lines that it has not come to are on their way.

* Nobody is logged in (`out`), or both are in one session (`within`). There the lines on their way are
  the next messages that the connection expects, so the next answer belongs to the first of them.
* The client has left its session for the reply to an earlier request (`stale`). What it hears next is
  a reply too, so no login succeeds.
* The connection has left the session for a request that asks for a logout (`parted`). It takes what
  comes next for greetings, and says nothing.

**Main result** (`replies_in_order`). The `k`-th reply that the client returns is the reply that the
connection has given to the `k`-th text that the client has put out, or says that somebody else is
logged in.
-/

namespace SealedChat.Client

open Dialogue
open Connection (Deed Note Serves)

/-! ## Replies and notes -/

/-- Each reply is what is noted for the text in its place. -/
def Matched (texts replies : List String) (notes : List Note) : Prop :=
  ∀ (k : Nat) (reply : String), replies[k]? = some reply →
    ∃ text note, texts[k]? = some text ∧ notes[k]? = some note ∧ note.Tells text reply

theorem matched_nil (texts : List String) (notes : List Note) : Matched texts [] notes :=
  fun _ _ h => by simp at h

theorem Matched.cons {texts replies : List String} {notes : List Note} {text reply : String}
    {note : Note} (h : Matched texts replies notes) (hn : note.Tells text reply) :
    Matched (text :: texts) (reply :: replies) (note :: notes) := by
  intro k r hr
  cases k with
  | zero =>
    cases hr
    exact ⟨text, note, rfl, rfl, hn⟩
  | succ k => exact h k r hr

/-! ## Between two calls -/

variable [CipherSuite] {client server : PrivateKey} {store : KeyStore} {limit : Duration}

/-- The client's session, the connection, and the lines on their way to it with their texts. -/
inductive Meets (client server : PrivateKey) (ds : List Deed) (cur : List Event) :
    Session → Connection → List Bytes → List String → Prop
  | out {d : Connection} : d.Vacant (.new [.base64] server none) →
      Meets client server ds cur (.new [.base64] client (some server.publicKey)) d [] []
  | within {d : Connection} {secrets : Secrets} {sent received turn : Nat} {identity : String}
      {lines : List Bytes} {texts : List String} :
      d.phase = .serving identity ∨ d.phase = .binding identity →
      d.session = (Session.new [.base64] server none).enter
        ⟨⟨secrets, .responder, received, turn⟩, [.base64], identity⟩ →
      Session.Delivers ⟨secrets, .initiator, sent, received⟩ ⟨secrets, .responder, received, turn⟩
        (texts.map Utf8.encode) lines →
      Meets client server ds cur
        ((Session.new [.base64] client (some server.publicKey)).enter
          ⟨⟨secrets, .initiator, sent, received⟩, [.base64], identity⟩) d lines texts
  | stale {d : Connection} {lines : List Bytes} {texts : List String} :
      (∀ line rest, said (Connection.events ds ++ cur) = line :: rest →
        line ∈ Connection.spoken ds) →
      Meets client server ds cur (.new [.base64] client (some server.publicKey)) d lines texts
  | parted {d : Connection} (cipher : SessionCipher) (identity : String) :
      d.Vacant (.new [.base64] server none) →
      Meets client server ds cur
        ((Session.new [.base64] client (some server.publicKey)).enter
          ⟨cipher, [.base64], identity⟩) d [] []

/-- All that is known between two calls, of what has happened and of what will happen. -/
structure Joined (client server : PrivateKey) (store : KeyStore) (limit : Duration)
    (cur : List Event) (d' : Connection) (c : Client) (xs : List Entry) (d : Connection)
    (ds : List Deed) (lines : List Bytes) (texts : List String) : Prop where
  serves : Serves store limit d ds cur d'
  linked : Linked lines xs ds cur
  fair : Fair client server store lines xs ds
  meets : Meets client server ds cur c.session d lines texts

/-- The replies from here on are right, or they are if they are from the next call on. -/
def Follows (client server : PrivateKey) (store : KeyStore) (limit : Duration) (cur : List Event)
    (d' : Connection) (c₁ : Client) (x : Entry) (xs : List Entry) (ds : List Deed)
    (texts : List String) : Prop :=
  Matched (texts ++ Client.texts (x :: xs)) (replies (x :: xs)) (Connection.notes ds) ∨
  ∃ d₁ ds₁ lines₁ texts₁, Joined client server store limit cur d' c₁ xs d₁ ds₁ lines₁ texts₁ ∧
    (Matched (texts₁ ++ Client.texts xs) (replies xs) (Connection.notes ds₁) →
      Matched (texts ++ Client.texts (x :: xs)) (replies (x :: xs)) (Connection.notes ds))

section

variable {cur : List Event} {c c₁ c' : Client} {d d' : Connection} {x : Entry} {xs : List Entry}
  {ds : List Deed} {lines lines' : List Bytes} {text : String} {texts : List String}
  {identity : String}

/-! ### One call -/

/-- Nothing happens. -/
theorem Joined.idle (h : Joined client server store limit cur d' c (x :: xs) d ds lines texts)
    (hx : x.events = []) (he : ∃ e, x.result = .error e) (hc : c₁.session = c.session) :
    Follows client server store limit cur d' c₁ x xs ds texts := by
  obtain ⟨e, he⟩ := he
  have hlinked : Linked lines xs ds cur := h.linked.tail [] (by simp [hx]) (by simp [hx])
  have hfair : Fair client server store lines xs ds := h.fair.tail [] fun _ => .inl
  refine .inr ⟨d, ds, lines, texts, ⟨h.serves, hlinked, hfair, hc ▸ h.meets⟩, ?_⟩
  rw [texts_cons_of_silent (by rw [hx]; rfl), replies_cons_of_error he]
  exact id

/-- No reply comes any more. -/
theorem follows_of_still (hs : CipherSuite.Lawful)
    (hc : Stands (.new [.base64] client (some server.publicKey)) c₁.session)
    (hcalls : Calls c₁ xs c') (hstill : said (events xs) = [] ∨ heard (events xs) = [])
    (hx : replies (x :: xs) = replies xs) :
    Follows client server store limit cur d' c₁ x xs ds texts := by
  left
  rw [hx, hcalls.replies_eq_nil hs hc hstill]
  exact matched_nil _ _

/-- While nobody is logged in, only a login does anything. It closes the line, or succeeds. -/
theorem Joined.call_out (h : Joined client server store limit cur d' c (x :: xs) d ds lines texts)
    (hs : CipherSuite.Lawful) (hc : c.session = .new [.base64] client (some server.publicKey))
    (hr : (c.call x.call).Runs x.events (x.result, c₁)) (hcalls : Calls c₁ xs c')
    (hlogin : ∀ identity answers hello reply confirm ca cb secrets, x.call = .login identity →
      x.result = .ok identity → x.events = draws answers ++ [.sent hello (.ok ()),
        .received (some c.handshakeTimeout) (.ok reply), .sent confirm (.ok ())] →
      Principal.IsValid identity → Handshake.Greets server.publicKey hello identity ca →
      Handshake.Echoes client reply ca cb secrets → Handshake.Returns secrets confirm cb →
      c₁.session = (Session.new [.base64] client (some server.publicKey)).enter
        ⟨⟨secrets, .initiator, 1, 0⟩, [.base64], identity⟩ →
      Follows client server store limit cur d' c₁ x xs ds texts) :
    Follows client server store limit cur d' c₁ x xs ds texts := by
  cases ht : x.call.text? with
  | some text =>
    obtain ⟨hx, he, hc₁⟩ := runs_call_refused (by rw [hc]; rfl) ht hr
    exact h.idle hx he (congrArg session hc₁)
  | none =>
    obtain ⟨identity, hcall⟩ := Call.eq_login ht
    rw [hcall] at hr
    rcases runs_login_cases hc hr with ⟨-, hc₁⟩ | ⟨answers, hello, reply, confirm, ca, cb, secrets,
      hresult, hx, hi, hgreets, hechoes, hreturns, hc₁⟩
    · refine follows_of_still hs ?_ hcalls (.inl (hcalls.said_of_shut hc₁))
        (replies_cons_of_login hcall)
      rw [hc₁]
      exact .closed
    · exact hlogin identity answers hello reply confirm ca cb secrets hcall hresult hx hi hgreets
        hechoes hreturns hc₁

theorem Joined.call_vacant (h : Joined client server store limit cur d' c (x :: xs) d ds [] [])
    (hs : CipherSuite.Lawful) (hc : c.session = .new [.base64] client (some server.publicKey))
    (hv : d.Vacant (.new [.base64] server none))
    (hr : (c.call x.call).Runs x.events (x.result, c₁)) (hcalls : Calls c₁ xs c') :
    Follows client server store limit cur d' c₁ x xs ds [] := by
  refine h.call_out hs hc hr hcalls fun identity answers hello reply confirm ca cb secrets hcall
    hresult hx hi hgreets hechoes hreturns hc₁ => ?_
  have hf := h.fair.known x List.mem_cons_self identity hcall hresult
  have hsaid : said x.events = [hello, confirm] := by simp [hx]
  have hheard : heard x.events = [reply] := by simp [hx]
  have hin := h.linked.toServer
  rw [events_cons, said_append, hsaid] at hin
  have hout := h.linked.toClient
  rw [events_cons, heard_append, hheard] at hout
  rcases meet_login hs h.serves hv hi hgreets hechoes hreturns hf hin hout with ⟨hstill, -⟩ |
    ⟨pre, d₁, ds₁, rfl, h₁, hpre, hpre', hnotes, hd₁, hp₁⟩
  · refine follows_of_still hs ?_ hcalls (.inr hstill) (replies_cons_of_login hcall)
    rw [hc₁]
    exact .within _ _
  · have hlinked : Linked [] xs ds₁ cur :=
      h.linked.tail pre (by rw [hpre, hsaid]; rfl) (by rw [hpre', hheard])
    have hfair : Fair client server store [] xs ds₁ := h.fair.tail pre fun _ => .inl
    have hmeets : Meets client server ds₁ cur c₁.session d₁ [] [] := by
      rw [hc₁]
      exact .within (.inr hp₁) hd₁ ⟨rfl, rfl, fun _ _ _ h => by simp at h⟩
    refine .inr ⟨d₁, ds₁, [], [], ⟨h₁, hlinked, hfair, hmeets⟩, ?_⟩
    rw [texts_cons_of_login hcall, replies_cons_of_login hcall, Connection.notes_append, hnotes]
    exact id

/-- Who has left the session for the reply to an earlier request does not get into another. -/
theorem Joined.call_stale (h : Joined client server store limit cur d' c (x :: xs) d ds lines texts)
    (hs : CipherSuite.Lawful) (hc : c.session = .new [.base64] client (some server.publicKey))
    (hstale : ∀ line rest, said (Connection.events ds ++ cur) = line :: rest →
      line ∈ Connection.spoken ds)
    (hr : (c.call x.call).Runs x.events (x.result, c₁)) (hcalls : Calls c₁ xs c') :
    Follows client server store limit cur d' c₁ x xs ds texts := by
  refine h.call_out hs hc hr hcalls fun identity answers hello reply confirm ca cb secrets _ _ hx _ _
    hechoes _ _ => ?_
  have hout := h.linked.toClient
  rw [events_cons, heard_append, show heard x.events = [reply] by simp [hx]] at hout
  obtain ⟨rest, hrest⟩ := hout
  exact absurd hechoes (h.fair.echo reply (hstale reply _ hrest.symm) ca cb secrets)

/-- A reply is in its place, and no other comes or the others are. -/
theorem follows_of_answer {asked reply : String} {later : List String} {note : Note}
    {notes : List Note} (hx : x.call.text? = some text) (hr : x.result = .ok reply)
    (hsaid : said x.events ≠ []) (htexts : texts ++ [text] = asked :: later)
    (hnotes : Connection.notes ds = note :: notes) (hn : note.Tells asked reply)
    (h : replies xs = [] ∨ ∃ d₁ ds₁ lines₁, Connection.notes ds₁ = notes ∧
      Joined client server store limit cur d' c₁ xs d₁ ds₁ lines₁ later) :
    Follows client server store limit cur d' c₁ x xs ds texts := by
  have hasked : texts ++ Client.texts (x :: xs) = asked :: (later ++ Client.texts xs) := by
    rw [texts_cons_of_said hsaid hx, List.append_cons, htexts, List.cons_append]
  rw [Follows, hasked, replies_cons_of_ok hx hr, hnotes]
  rcases h with h | ⟨d₁, ds₁, lines₁, rfl, h⟩
  · left
    rw [h]
    exact (matched_nil _ _).cons hn
  · exact .inr ⟨d₁, ds₁, lines₁, later, h, fun hmatched => hmatched.cons hn⟩

/-- After an answer both ends are in the session, or out of it, or only one is. -/
theorem meets_of_answer (hs : CipherSuite.Lawful) (h : Serves store limit d ds cur d')
    (hlinked : Linked lines xs ds cur) (hfair : Fair client server store lines xs ds)
    {asked : String} {secrets : Secrets} {sent received turn : Nat} (hx : x.call.text? = some text)
    (hdel : Session.Delivers ⟨secrets, .initiator, sent, received⟩
      ⟨secrets, .responder, received, turn⟩ (texts.map Utf8.encode) lines)
    (hd : d.session = (Session.new [.base64] server none).enter
      ⟨⟨secrets, .responder, received, turn⟩, [.base64], identity⟩)
    (hp : d.phase = if Request.isLogout asked then .unbinding identity else .serving identity)
    (hc₁ : c₁.session = x.call.after (.new [.base64] client (some server.publicKey))
      ⟨secrets, .initiator, sent, received⟩ identity) :
    heard (events xs) = [] ∨ Meets client server ds cur c₁.session d lines texts := by
  cases hlogout : Request.isLogout asked with
  | true =>
    rw [hlogout, if_pos rfl] at hp
    have hv : d.Vacant (.new [.base64] server none) :=
      .inr ⟨by rw [hp]; trivial, _, _, hd⟩
    cases lines with
    | nil =>
      right
      obtain rfl : texts = [] := by simpa using hdel.length.symm
      rw [hc₁]
      cases hcall : x.call with
      | login name => rw [hcall] at hx; cases hx
      | request line => exact .parted _ _ hv
      | logout => exact .out hv
    | cons line rest =>
      exact .inl (heard_of_vacant h hv hlinked rfl (hfair.greeting line (by simp)))
  | false =>
    rw [hlogout, if_neg (by simp)] at hp
    right
    rw [hc₁]
    cases hcall : x.call with
    | login name => rw [hcall] at hx; cases hx
    | request line => exact .within (.inl hp) hd hdel
    | logout =>
      refine .stale fun line rest hsaid => ?_
      rcases h.round hs hp hd with hsaid' | ⟨pre, ds', d₁, question, answer, _, _, rfl, -, hround⟩
      · rw [hsaid'] at hsaid
        cases hsaid
      · rw [Connection.events_append, List.append_assoc, said_append, hround.said] at hsaid
        obtain ⟨rfl, -⟩ := List.cons.inj hsaid
        rw [Connection.spoken_append]
        exact List.mem_append_left _ hround.spoken

/-- A text is put out and a line comes back: it belongs to the first text that has got none. -/
theorem Joined.call_answered
    (h : Joined client server store limit cur d' c (x :: xs) d ds lines texts)
    (hs : CipherSuite.Lawful) (hcalls : Calls c₁ xs c') {secrets : Secrets}
    {sent received turn : Nat} (hp : d.phase = .serving identity ∨ d.phase = .binding identity)
    (hd : d.session = (Session.new [.base64] server none).enter
      ⟨⟨secrets, .responder, received, turn⟩, [.base64], identity⟩)
    (hdel : Session.Delivers ⟨secrets, .initiator, sent, received⟩
      ⟨secrets, .responder, received, turn⟩ (texts.map Utf8.encode) lines)
    (hstands : Stands (.new [.base64] client (some server.publicKey)) c₁.session)
    (hx : x.call.text? = some text) {line answer : Bytes} (hsaid : said x.events = [line])
    (hheard : heard x.events = [answer])
    (hline : Enciphers secrets .initiator sent (Utf8.encode text) line)
    (hresult : (∀ reply, ¬Enciphers secrets .responder received (Utf8.encode reply) answer) ∨
      ∃ reply, x.result = .ok reply ∧
        Enciphers secrets .responder received (Utf8.encode reply) answer ∧
        c₁.session = x.call.after (.new [.base64] client (some server.publicKey))
          ⟨secrets, .initiator, sent + 1, received + 1⟩ identity) :
    Follows client server store limit cur d' c₁ x xs ds texts := by
  have hdel' := hdel.send hline
  have hin := h.linked.toServer
  rw [events_cons, said_append, hsaid, List.singleton_append, List.append_cons] at hin
  have hout := h.linked.toClient
  rw [events_cons, heard_append, hheard] at hout
  -- the texts on their way, this one included, are not none
  obtain ⟨asked, later, htexts⟩ : ∃ asked later, texts ++ [text] = asked :: later :=
    List.exists_cons_of_ne_nil (by simp)
  rw [← List.map_singleton (f := Utf8.encode), ← List.map_append, htexts] at hdel'
  obtain ⟨question, rest, hlines, -⟩ := hdel'.receive
  rw [hlines] at hdel' hin
  have hreply (reply : String) (hreply : Enciphers secrets .responder received (Utf8.encode reply)
      answer) : x.result = .ok reply ∧
        c₁.session = x.call.after (.new [.base64] client (some server.publicKey))
          ⟨secrets, .initiator, sent + 1, received + 1⟩ identity := by
    rcases hresult with hnone | ⟨reply', hr, hreply', hc₁⟩
    · exact absurd hreply (hnone reply)
    · obtain rfl := Utf8.encode_injective (hreply.unique hreply')
      exact ⟨hr, hc₁⟩
  rcases meet_answer hs h.serves hp hd hdel' hin hout with ⟨hstill, hnotes, hrefused⟩ |
    ⟨pre, d₁, ds₁, reply, note, rfl, h₁, hpre, hpre', hnotes, htells, hanswer, hdel₁, hd₁, hp₁⟩
  · obtain ⟨hr, -⟩ := hreply _ hrefused
    exact follows_of_answer hx hr (by simp [hsaid]) htexts hnotes rfl
      (.inl (hcalls.replies_eq_nil hs hstands (.inr hstill)))
  · obtain ⟨hr, hc₁⟩ := hreply _ hanswer
    have hlinked : Linked rest xs ds₁ cur :=
      h.linked.tail pre (by rw [hpre, hsaid, hlines]; rfl) (by rw [hpre', hheard])
    have hfair : Fair client server store rest xs ds₁ := h.fair.tail pre fun l hl => by
      have hmem : l ∈ lines ++ [line] := hlines ▸ List.mem_cons_of_mem question hl
      refine (List.mem_append.1 hmem).imp_right fun hl => ?_
      rw [Entry.spoken, if_neg (by simp [hx]), hsaid]
      exact hl
    refine follows_of_answer hx hr (by simp [hsaid]) htexts
      (by rw [Connection.notes_append, hnotes]; rfl) htells ?_
    rcases meets_of_answer hs h₁ hlinked hfair hx hdel₁ hd₁ hp₁ hc₁ with hstill | hmeets
    · exact .inl (hcalls.replies_eq_nil hs hstands (.inr hstill))
    · exact .inr ⟨d₁, ds₁, rest, rfl, h₁, hlinked, hfair, hmeets⟩

theorem Joined.call_within
    (h : Joined client server store limit cur d' c (x :: xs) d ds lines texts)
    (hs : CipherSuite.Lawful) (hcalls : Calls c₁ xs c') {secrets : Secrets}
    {sent received turn : Nat} (hp : d.phase = .serving identity ∨ d.phase = .binding identity)
    (hd : d.session = (Session.new [.base64] server none).enter
      ⟨⟨secrets, .responder, received, turn⟩, [.base64], identity⟩)
    (hdel : Session.Delivers ⟨secrets, .initiator, sent, received⟩
      ⟨secrets, .responder, received, turn⟩ (texts.map Utf8.encode) lines)
    (hc : c.session = (Session.new [.base64] client (some server.publicKey)).enter
      ⟨⟨secrets, .initiator, sent, received⟩, [.base64], identity⟩)
    (hr : (c.call x.call).Runs x.events (x.result, c₁)) :
    Follows client server store limit cur d' c₁ x xs ds texts := by
  cases hx : x.call.text? with
  | none =>
    obtain ⟨name, hcall⟩ := Call.eq_login hx
    rw [hcall] at hr
    obtain ⟨hevents, he, hc₁⟩ := runs_login_refused (by rw [hc]; simp [Session.enter]) hr
    exact h.idle hevents he (congrArg session hc₁)
  | some text =>
    have htraffic := traffic_of_runs hs rfl hc hx hr
    generalize hevents : x.events = es, hresult : x.result = r, hc₁ : c₁.session = session
      at htraffic
    cases htraffic with
    | silent e => exact h.idle hevents ⟨e, hresult⟩ (hc₁.trans hc.symm)
    | lost line e e' =>
      refine follows_of_still hs ?_ hcalls (.inl ?_) (replies_cons_of_error hresult)
      · rw [hc₁]
        exact .within _ _
      · have hlost : Event.sent line (.error e) ∈ x.events := hevents ▸ List.mem_singleton_self _
        exact h.fair.said_of_lost hlost trivial
    | @unanswered line wait e e' hline =>
      have hsaid : said x.events = [line] := by rw [hevents]; rfl
      have hheard : heard x.events = [] := by rw [hevents]; rfl
      have hlinked : Linked (lines ++ [line]) xs ds cur :=
        h.linked.tail [] (by rw [hsaid]; rfl) hheard.symm
      have hfair : Fair client server store (lines ++ [line]) xs ds :=
        h.fair.tail [] fun l hl => (List.mem_append.1 hl).imp_right fun hl => by
          rwa [Entry.spoken, if_neg (by simp [hx]), hsaid]
      have hdel' := hdel.send hline
      rw [← List.map_singleton (f := Utf8.encode), ← List.map_append] at hdel'
      refine .inr ⟨d, ds, lines ++ [line], texts ++ [text],
        ⟨h.serves, hlinked, hfair, hc₁ ▸ .within hp hd hdel'⟩, ?_⟩
      rw [texts_cons_of_said (by simp [hsaid]) hx, replies_cons_of_error hresult,
        ← List.append_cons]
      exact id
    | garbled wait e cipher' hline hnone =>
      refine h.call_answered hs hcalls hp hd hdel ?_ hx (by rw [hevents]; rfl) (by rw [hevents]; rfl)
        hline (.inl hnone)
      rw [hc₁]
      exact .within _ _
    | answered wait hline hanswer =>
      refine h.call_answered hs hcalls hp hd hdel ?_ hx (by rw [hevents]; rfl) (by rw [hevents]; rfl)
        hline (.inr ⟨_, hresult, hanswer, hc₁⟩)
      rw [hc₁]
      cases hcall : x.call with
      | login name => rw [hcall] at hx; cases hx
      | request line => exact .within _ _
      | logout => exact .out

/-- A session that the connection has left is silent. -/
theorem Joined.call_parted
    (h : Joined client server store limit cur d' c (x :: xs) d ds [] [])
    (hs : CipherSuite.Lawful) (hcalls : Calls c₁ xs c') {cipher : SessionCipher}
    (hv : d.Vacant (.new [.base64] server none))
    (hc : c.session = (Session.new [.base64] client (some server.publicKey)).enter
      ⟨cipher, [.base64], identity⟩)
    (hr : (c.call x.call).Runs x.events (x.result, c₁)) :
    Follows client server store limit cur d' c₁ x xs ds [] := by
  obtain ⟨⟨e, he⟩, ⟨hevents, hc₁⟩ | ⟨hstands, -, hstill⟩⟩ :=
    call_of_parted hs h.serves hv h.linked h.fair hc hr
  · exact h.idle hevents ⟨e, he⟩ hc₁
  · exact follows_of_still hs hstands hcalls hstill (replies_cons_of_error he)

/-- **One call.** -/
theorem Joined.call (h : Joined client server store limit cur d' c (x :: xs) d ds lines texts)
    (hs : CipherSuite.Lawful) (hr : (c.call x.call).Runs x.events (x.result, c₁))
    (hcalls : Calls c₁ xs c') : Follows client server store limit cur d' c₁ x xs ds texts := by
  have hmeets := h.meets
  generalize hc : c.session = session at hmeets
  cases hmeets with
  | out hv => exact h.call_vacant hs hc hv hr hcalls
  | within hp hd hdel => exact h.call_within hs hcalls hp hd hdel hc hr
  | stale hstale => exact h.call_stale hs hc hstale hr hcalls
  | parted cipher identity hv => exact h.call_parted hs hcalls hv hc hr

/-- **All calls.** -/
theorem Joined.matched (h : Joined client server store limit cur d' c xs d ds lines texts)
    (hs : CipherSuite.Lawful) (hcalls : Calls c xs c') :
    Matched (texts ++ Client.texts xs) (replies xs) (Connection.notes ds) := by
  induction hcalls generalizing d ds lines texts with
  | nil c => exact matched_nil _ _
  | cons hr hcalls ih =>
    rcases h.call hs hr hcalls with hmatched | ⟨d₁, ds₁, lines₁, texts₁, h₁, hback⟩
    · exact hmatched
    · exact hback (ih h₁)

end

variable {c' : Client} {d' : Connection} {xs : List Entry} {ds : List Deed} {cur : List Event}

/-- **The replies of a client come in the order of its texts.** The `k`-th reply is the answer to the
`k`-th text that was put out. So if the texts before it have got their replies, what a request or a
logout returns is the answer to its own text. -/
theorem replies_in_order (hs : CipherSuite.Lawful)
    (h : Talks client server store limit c' d' xs ds cur) :
    Matched (texts xs) (replies xs) (Connection.notes ds) ∧
    ∀ pre x post text reply, xs = pre ++ x :: post → x.call.text? = some text →
      x.result = .ok reply → (∀ y ∈ pre, y.Answered) →
      ∃ note, (Connection.notes ds)[(texts pre).length]? = some note ∧ note.Tells text reply := by
  obtain ⟨settings, hcalls⟩ := h.calls
  obtain ⟨id, hserves⟩ := h.serves
  have hmeets : Meets client server ds cur (new settings client server.publicKey).session
      (.new id server) [] [] := .out (.inl ⟨rfl, false, rfl⟩)
  have hmatched : Matched (texts xs) (replies xs) (Connection.notes ds) :=
    Joined.matched ⟨hserves, h.linked, h.fair, hmeets⟩ hs hcalls
  refine ⟨hmatched, ?_⟩
  rintro pre x post text reply rfl hx hr hanswered
  obtain ⟨c₁, hpre, hrest⟩ := hcalls.split
  have hlength := hpre.length_replies hs .out hanswered
  cases hrest with
  | cons hrun _ =>
    have hstands : Stands (.new [.base64] client (some server.publicKey)) c₁.session :=
      Stands.calls hs .out hpre
    obtain ⟨hsaid, -⟩ := (hstands.call hs hrun).2 text reply hx hr
    obtain ⟨text', note, ht, hn, htells⟩ := hmatched (texts pre).length reply (by
      rw [replies_append, replies_cons_of_ok hx hr, ← hlength]
      simp)
    rw [texts_append, texts_cons_of_said hsaid hx] at ht
    obtain rfl : text = text' := by simpa using ht
    exact ⟨note, hn, htells⟩

/-! ## Late replies, and refusals -/

omit [CipherSuite] in
/-- Three requests. The reply to the second is late, and is what the third returns. -/
theorem exists_late_reply : ∃ (suite : CipherSuite) (client server : PrivateKey) (store : KeyStore)
    (limit : Duration) (c' : Client) (d' : Connection) (xs : List Entry) (ds : List Deed),
    suite = .between client.block server.block ∧ Talks client server store limit c' d' xs ds [] ∧
    xs.map (fun x => (x.call, x.result)) = [(.login "alice", .ok "alice"),
      (.request "!one", .ok "one"), (.request "!two", .error .timeout),
      (.request "!one", .ok "two")] ∧
    Connection.notes ds = [.reply "!one" "one", .reply "!two" "two", .reply "!one" "one"] := by
  let client : PrivateKey := ⟨.zero 32⟩
  let server : PrivateKey := ⟨.ofPrefix 32 [1]⟩
  let suite := CipherSuite.between client.block server.block
  let store := KeyRing.toStore ⟨[("alice", client.publicKey)]⟩
  let hub : Hub := .new ⟨[("!one", fun _ _ _ => .ok "one"), ("!two", fun _ _ _ => .ok "two")]⟩
  let limit : Duration := .ofSeconds 10
  have hs : CipherSuite.Lawful := CipherSuite.lawful_between client.block server.block
  have hfind : store.find "alice" = .ok client.publicKey := rfl
  have hone : Request.replyTo hub "alice" "!one" = "one" := rfl
  have htwo : Request.replyTo hub "alice" "!two" = "two" := rfl
  have hk : ∀ n < 4, n < SessionCrypt.directionBit := by decide
  have hfits₁ : ChaChaPoly.fits (Utf8.encode "!one").length := by decide
  have hfits₂ : ChaChaPoly.fits (Utf8.encode "!two").length := by decide
  have hfits₁' : ChaChaPoly.fits (Utf8.encode "one").length := by decide
  have hfits₂' : ChaChaPoly.fits (Utf8.encode "two").length := by decide
  obtain ⟨secrets, es, pre, c, d, hlogin, hc, hserves, hd, hp, hheard, hsaid, hnotes, hspoken, hsound,
    -⟩ := exists_bound server hs (by decide) hfind {} 1 limit hub rfl
  -- the first request is answered
  obtain ⟨q₁, hq₁, hlen₁, hanswered₁, -⟩ := exists_runs_request hs hc (hk 1 (by decide)) hfits₁
  obtain ⟨pre₁, d₁, a₁, hserves₁, hevents₁, hnotes₁, hspoken₁, hlen₁', ha₁, hd₁, hp₁⟩ :=
    Connection.exists_serves_request store limit hs hp hd hq₁ (by decide) hub hone (hk 0 (by decide))
      hfits₁'
  have hrequest₁ := hanswered₁ a₁ "one" ha₁
  -- the second is not answered in time
  let c₁ : Client := { c with
    session := (Session.new [.base64] client (some server.publicKey)).enter
      ⟨⟨secrets, .initiator, 2, 1⟩, [.base64], "alice"⟩ }
  obtain ⟨q₂, hq₂, hlen₂, -, hlate⟩ := exists_runs_request (c := c₁) hs rfl (hk 2 (by decide)) hfits₂
  obtain ⟨pre₂, d₂, a₂, hserves₂, hevents₂, hnotes₂, hspoken₂, hlen₂', ha₂, hd₂, hp₂⟩ :=
    Connection.exists_serves_request store limit hs hp₁ hd₁ hq₂ (by decide) hub htwo
      (hk 1 (by decide)) hfits₂'
  have hrequest₂ := hlate .timeout
  -- the third meets the late reply
  let c₂ : Client := { c with
    session := (Session.new [.base64] client (some server.publicKey)).enter
      ⟨⟨secrets, .initiator, 3, 1⟩, [.base64], "alice"⟩ }
  obtain ⟨q₃, hq₃, hlen₃, hanswered₃, -⟩ := exists_runs_request (c := c₂) hs rfl (hk 3 (by decide)) hfits₁
  obtain ⟨pre₃, d₃, a₃, hserves₃, hevents₃, hnotes₃, hspoken₃, hlen₃', -, -, -⟩ :=
    Connection.exists_serves_request store limit hs hp₂ hd₂ hq₃ (by decide) hub hone
      (hk 2 (by decide)) hfits₁'
  have hrequest₃ := hanswered₃ a₂ "two" ha₂
  let wait := some c.responseTimeout
  let xs : List Entry := [⟨.login "alice", es, .ok "alice"⟩,
    ⟨.request "!one", [.sent q₁ (.ok ()), .received wait (.ok a₁)], .ok "one"⟩,
    ⟨.request "!two", [.sent q₂ (.ok ()), .received wait (.error .timeout)], .error .timeout⟩,
    ⟨.request "!one", [.sent q₃ (.ok ()), .received wait (.ok a₂)], .ok "two"⟩]
  let ds := pre ++ (pre₁ ++ (pre₂ ++ pre₃))
  have hcalls : Calls (new {} client server.publicKey) xs _ :=
    .cons hlogin (.cons hrequest₁ (.cons hrequest₂ (.cons hrequest₃ (.nil _))))
  have hlost : ∀ e ∈ events xs, ¬e.Lost := by
    refine List.forall_mem_append.2 ⟨fun e he hlost => hsound e he hlost.failed, ?_⟩
    simp [Event.Lost]
  have hspoken' : spoken xs = [q₁, q₂, q₃] := rfl
  have hanswers : Connection.spoken ds = [a₁, a₂, a₃] := by
    simp [ds, hspoken, hspoken₁, hspoken₂, hspoken₃]
  refine ⟨suite, client, server, store, limit, _, d₃, xs, ds, rfl, ⟨⟨{}, hcalls⟩,
    ⟨1, hserves.append (hserves₁.append (hserves₂.append hserves₃))⟩, ⟨?_, ?_⟩,
    fair_of_short ?_ hlost ?_ ?_⟩, rfl, ?_⟩
  · simp [xs, ds, hheard, hevents₁, hevents₂, hevents₃]
  · simp [xs, ds, hsaid, hevents₁, hevents₂, hevents₃]
  · simp [xs, hfind]
  · simp only [hspoken', List.forall_mem_cons]
    exact ⟨by rw [hlen₁]; decide, by rw [hlen₂]; decide, by rw [hlen₃]; decide, by simp⟩
  · simp only [hanswers, List.forall_mem_cons]
    exact ⟨by rw [hlen₁']; decide, by rw [hlen₂']; decide, by rw [hlen₃']; decide, by simp⟩
  · simp [ds, hnotes, hnotes₁, hnotes₂, hnotes₃]

omit [CipherSuite] in
/-- Somebody who is online already logs in again, and asks for something. -/
theorem exists_refused_reply : ∃ (suite : CipherSuite) (client server : PrivateKey)
    (store : KeyStore) (limit : Duration) (c' : Client) (d' : Connection) (xs : List Entry)
    (ds : List Deed),
    suite = .between client.block server.block ∧ Talks client server store limit c' d' xs ds [] ∧
    xs.map (fun x => (x.call, x.result)) = [(.login "alice", .ok "alice"),
      (.request "!one", .ok ChatError.alreadyLoggedInText)] ∧ Connection.notes ds = [.refused] := by
  let client : PrivateKey := ⟨.zero 32⟩
  let server : PrivateKey := ⟨.ofPrefix 32 [1]⟩
  let suite := CipherSuite.between client.block server.block
  let store := KeyRing.toStore ⟨[("alice", client.publicKey)]⟩
  let hub : Hub := { Hub.new ⟨[]⟩ with table := (SessionTable.empty.bind "alice" 2).2 }
  have hs : CipherSuite.Lawful := CipherSuite.lawful_between client.block server.block
  have hfind : store.find "alice" = .ok client.publicKey := rfl
  let limit : Duration := .ofSeconds 10
  obtain ⟨secrets, es, pre, c, d, hlogin, hc, hserves, hd, hp, hheard, hsaid, hnotes, hspoken, hsound,
    -⟩ := exists_logged_in server hs (by decide) hfind {} 1 limit hub
  have hk : ∀ n < 2, n < SessionCrypt.directionBit := by decide
  have hfits : ChaChaPoly.fits (Utf8.encode "!one").length := by decide
  obtain ⟨q, hq, hlen, hanswered, -⟩ := exists_runs_request hs hc (hk 1 (by decide)) hfits
  obtain ⟨pre', d', a, hserves', hevents, hnotes', hspoken', hlen', ha⟩ :=
    Connection.exists_serves_refusal store limit hs hp hd hub rfl (hk 0 (by decide))
  have hrequest := hanswered a ChatError.alreadyLoggedInText ha
  let xs : List Entry := [⟨.login "alice", es, .ok "alice"⟩, ⟨.request "!one",
    [.sent q (.ok ()), .received (some c.responseTimeout) (.ok a)],
    .ok ChatError.alreadyLoggedInText⟩]
  have hcalls : Calls (new {} client server.publicKey) xs _ :=
    .cons hlogin (.cons hrequest (.nil _))
  have hlost : ∀ e ∈ events xs, ¬e.Lost := by
    refine List.forall_mem_append.2 ⟨fun e he hlost => hsound e he hlost.failed, ?_⟩
    simp [Event.Lost]
  have hquestions : spoken xs = [q] := rfl
  refine ⟨suite, client, server, store, limit, _, d', xs, pre ++ pre', rfl,
    ⟨⟨{}, hcalls⟩, ⟨1, hserves.append hserves'⟩, ⟨?_, ?_⟩, fair_of_short ?_ hlost ?_ ?_⟩, rfl, ?_⟩
  · simp [xs, hheard, hevents]
  · simp [xs, hsaid, hevents]
  · simp [xs, hfind]
  · rw [hquestions, List.forall_mem_singleton, hlen]
    decide
  · rw [Connection.spoken_append, hspoken, hspoken', List.nil_append, List.forall_mem_singleton, hlen']
    decide
  · rw [Connection.notes_append, hnotes, hnotes', List.nil_append]

omit [CipherSuite] in
theorem replies_in_order_of_late : ∃ (suite : CipherSuite) (client server : PrivateKey)
    (store : KeyStore) (limit : Duration) (c' : Client) (d' : Connection) (xs : List Entry)
    (ds : List Deed),
    suite = .between client.block server.block ∧ Talks client server store limit c' d' xs ds [] ∧
    xs.map (fun x => (x.call, x.result)) = [(.login "alice", .ok "alice"),
      (.request "!one", .ok "one"), (.request "!two", .error .timeout),
      (.request "!one", .ok "two")] ∧
    Matched (texts xs) (replies xs) (Connection.notes ds) ∧
    ∀ pre x post text reply, xs = pre ++ x :: post → x.call.text? = some text →
      x.result = .ok reply → (∀ y ∈ pre, y.Answered) →
      ∃ note, (Connection.notes ds)[(texts pre).length]? = some note ∧ note.Tells text reply := by
  obtain ⟨suite, client, server, store, limit, c', d', xs, ds, rfl, h, hxs, -⟩ := exists_late_reply
  have hs := CipherSuite.lawful_between client.block server.block
  exact ⟨_, client, server, store, limit, c', d', xs, ds, rfl, h, hxs,
    @replies_in_order (.between client.block server.block) _ _ _ _ _ _ _ _ _ hs h⟩

/-- What a request returns is always a reply to its own line. -/
def Own (xs : List Entry) (ds : List Deed) : Prop :=
  ∀ x ∈ xs, ∀ line reply, x.call = .request line → x.result = .ok reply →
    ∃ note ∈ Connection.notes ds, note ≠ .refused ∧ note.Tells line reply

omit [CipherSuite] in
/-- A request may return the late reply to an earlier one; and even if no reply is late, what it
returns may say that somebody else is logged in. -/
theorem reply_to_another : (∃ (suite : CipherSuite) (client server : PrivateKey) (store : KeyStore)
    (limit : Duration) (c' : Client) (d' : Connection) (xs : List Entry) (ds : List Deed),
    suite = .between client.block server.block ∧ Talks client server store limit c' d' xs ds [] ∧
    Note.refused ∉ Connection.notes ds ∧ ¬Own xs ds) ∧
    ∃ (suite : CipherSuite) (client server : PrivateKey) (store : KeyStore) (limit : Duration)
      (c' : Client) (d' : Connection) (xs : List Entry) (ds : List Deed),
    suite = .between client.block server.block ∧ Talks client server store limit c' d' xs ds [] ∧
    (∀ x ∈ xs, x.Answered) ∧ ¬Own xs ds := by
  constructor
  · obtain ⟨suite, client, server, store, limit, c', d', xs, ds, hsuite, h, hxs, hds⟩ :=
      exists_late_reply
    refine ⟨suite, client, server, store, limit, c', d', xs, ds, hsuite, h, by simp [hds],
      fun hown => ?_⟩
    obtain ⟨x, hx, heq⟩ : ∃ x ∈ xs, (x.call, x.result) = (.request "!one", .ok "two") := by
      refine List.mem_map.1 ?_
      rw [hxs]
      simp
    obtain ⟨hcall, hresult⟩ := Prod.mk.inj heq
    obtain ⟨note, hnote, -, htells⟩ := hown x hx "!one" "two" hcall hresult
    simp only [hds, List.mem_cons, List.not_mem_nil, or_false] at hnote
    rcases hnote with rfl | rfl | rfl
    · exact absurd htells.2 (by decide)
    · exact absurd htells.1 (by decide)
    · exact absurd htells.2 (by decide)
  · obtain ⟨suite, client, server, store, limit, c', d', xs, ds, hsuite, h, hxs, hds⟩ :=
      exists_refused_reply
    refine ⟨suite, client, server, store, limit, c', d', xs, ds, hsuite, h, fun x hx text _ => ?_,
      fun hown => ?_⟩
    · have hmem := List.mem_map_of_mem (f := fun x : Entry => (x.call, x.result)) hx
      simp only [hxs, List.mem_cons, List.not_mem_nil, or_false, Prod.mk.injEq] at hmem
      rcases hmem with ⟨-, hr⟩ | ⟨-, hr⟩
      · exact ⟨_, hr⟩
      · exact ⟨_, hr⟩
    · obtain ⟨x, hx, heq⟩ : ∃ x ∈ xs, (x.call, x.result) =
          (.request "!one", .ok ChatError.alreadyLoggedInText) := by
        refine List.mem_map.1 ?_
        rw [hxs]
        simp
      obtain ⟨hcall, hresult⟩ := Prod.mk.inj heq
      obtain ⟨note, hnote, hne, -⟩ := hown x hx _ _ hcall hresult
      rw [hds, List.mem_singleton] at hnote
      exact hne hnote

end SealedChat.Client
