import SealedChat.Proofs.Dialogue.Lines
import SealedChat.Proofs.Handshake.Course

/-!
# What one side of a login says, the other hears

The lines of an initiator and of a responder that hold the keys of each other. A greeting introduces
whoever sent it, an answer echoes the challenge of the greeting, and a confirmation confirms; and no
line can be taken for two. So both sides of a login can be carried out line by line (`exists_login`).
-/

namespace SealedChat

open Dialogue

variable [CipherSuite]

namespace Handshake

variable {client server : PrivateKey} {line : Bytes} {identity name : String}
  {ca cb ca' cb' : Challenge} {secrets secrets' : Secrets}

theorem Greets.introduces (hs : CipherSuite.Lawful)
    (h : Greets server.publicKey line identity ca) : Introduces server line identity ca := by
  obtain ⟨box, hline, hseal⟩ := h
  exact ⟨box, hline, hseal.openWith hs⟩

theorem Discloses.echoes (hs : CipherSuite.Lawful)
    (h : Discloses client.publicKey line ca cb secrets) : Echoes client line ca cb secrets := by
  obtain ⟨box, hline, hseal⟩ := h
  exact ⟨box, hline, hseal.openWith hs⟩

theorem Returns.confirms (hs : CipherSuite.Lawful) (h : Returns secrets line cb) :
    Confirms secrets line cb := by
  obtain ⟨c, hline, hc⟩ := h
  have hconfirm := Message.parseConfirm_encode_confirm cb
  rw [Message.parseConfirm_eq_ok_iff, Message.encode_confirm] at hconfirm
  exact ⟨c, _, hline, SessionCrypt.decrypt_of_encrypt hs hc, hconfirm⟩

/-- No short line holds a box. -/
theorem le_length_of_openWith {own : PrivateKey} {plain box : Bytes}
    (h : SealedBox.openWith own box = .ok plain) : 80 ≤ (Base64.encodeLine box).length := by
  have hlen := SealedBox.overhead_le_length h
  rw [SealedBox.overhead] at hlen
  rw [Base64.length_encodeLine]
  omega

theorem Introduces.length_le (h : Introduces server line identity ca) : 80 ≤ line.length := by
  obtain ⟨box, rfl, hbox⟩ := h
  exact le_length_of_openWith hbox

theorem Echoes.length_le (h : Echoes client line ca cb secrets) : 80 ≤ line.length := by
  obtain ⟨box, rfl, hbox⟩ := h
  exact le_length_of_openWith hbox

/-- A line holds one message for the holder of a key. -/
theorem message_unique {own : PrivateKey} {m m' : Message} (hm : m.IsValid) (hm' : m'.IsValid)
    (h : ∃ box, line = Base64.encodeLine box ∧
      SealedBox.openWith own box = .ok (Utf8.encode m.encode))
    (h' : ∃ box, line = Base64.encodeLine box ∧
      SealedBox.openWith own box = .ok (Utf8.encode m'.encode)) : m = m' := by
  obtain ⟨box, rfl, hbox⟩ := h
  obtain ⟨box', hline, hbox'⟩ := h'
  obtain rfl : box = box' := Base64.encodeLine_injective hline
  have htext := Utf8.encode_injective (Except.ok.inj (hbox.symm.trans hbox'))
  exact Message.encode_inj hm hm' htext

/-- A line introduces one side. -/
theorem Introduces.unique (hi : Principal.IsValid identity) (hn : Principal.IsValid name)
    (h : Introduces server line identity ca) (h' : Introduces server line name ca') :
    identity = name ∧ ca = ca' := by
  have hmessage : Message.authenticate identity ca = .authenticate name ca' :=
    message_unique hi hn h h'
  cases hmessage
  exact ⟨rfl, rfl⟩

/-- A line echoes one challenge. -/
theorem Echoes.unique (h : Echoes client line ca cb secrets)
    (h' : Echoes client line ca' cb' secrets') : cb = cb' ∧ secrets = secrets' := by
  have hmessage : Message.accept ca cb secrets = .accept ca' cb' secrets' :=
    message_unique trivial trivial h h'
  cases hmessage
  exact ⟨rfl, rfl⟩

/-- A login that both sides carry out. -/
theorem exists_login (server : PrivateKey) (hs : CipherSuite.Lawful) {store : KeyStore}
    (hi : Principal.IsValid identity) (hf : store.find identity = .ok client.publicKey)
    (first : Option Duration) (limit limit' : Duration) : ∃ secrets hello reply confirm es es',
      (initiate ⟨client, some server.publicKey⟩ [.base64] identity limit).Runs es
        (.ok ⟨⟨secrets, .initiator, 1, 0⟩, [.base64], identity⟩) ∧
      (respond ⟨server, none⟩ [.base64] store first limit').Runs es'
        (.ok ⟨⟨secrets, .responder, 0, 1⟩, [.base64], identity⟩) ∧
      said es = [hello, confirm] ∧ Dialogue.heard es = [reply] ∧ said es' = [reply] ∧
      Dialogue.heard es' = [hello, confirm] ∧ Sound es ∧ Sound es' := by
  let c : Challenge := ⟨.zero 32⟩
  let secrets : Secrets := ⟨⟨.zero 32⟩, ⟨.zero 16⟩⟩
  have hauth : (Message.authenticate identity c).IsValid := hi
  have haccept : (Message.accept c c secrets).IsValid := trivial
  have hconfirm : (Message.confirm c).IsValid := trivial
  obtain ⟨hello, answers, hhello⟩ :=
    SealedBox.exists_seals hs server (Message.size_encode_le hauth)
  obtain ⟨reply, answers', hreply⟩ :=
    SealedBox.exists_seals hs client (Message.size_encode_le haccept)
  have hopen := SealedBox.Seals.openWith hs ⟨answers, hhello⟩
  have hopen' := SealedBox.Seals.openWith hs ⟨answers', hreply⟩
  have hfits : ChaChaPoly.fits (Utf8.encode (Message.confirm c).encode).length :=
    ChaChaPoly.fits_of_le (Nat.le_trans (Message.size_encode_le hconfirm) (by decide))
  obtain ⟨confirm, henc, -, -⟩ := SessionCrypt.exists_encrypt_of_sound (k := 0) hs.session secrets
    .initiator (by decide) hfits
  have hreturns : Returns secrets (Base64.encodeLine confirm) c := ⟨confirm, rfl, henc⟩
  have hinitiate : (initiate ⟨client, some server.publicKey⟩ [.base64] identity limit).Runs _ _ :=
    runs_initiate hi rfl hhello ⟨reply, rfl, hopen'⟩ hreturns
  have hrespond : (respond ⟨server, none⟩ [.base64] store first limit').Runs _ _ :=
    runs_respond hi ⟨hello, rfl, hopen⟩ hf hreply (hreturns.confirms hs)
  exact ⟨secrets, Base64.encodeLine hello, Base64.encodeLine reply, Base64.encodeLine confirm, _, _,
    hinitiate, hrespond, by simp, by simp, by simp, by simp,
    by simp [sound_cons, sound_append, sound_draws, sound_nil, Event.Failed],
    by simp [sound_cons, sound_append, sound_draws, sound_nil, Event.Failed]⟩

end Handshake

end SealedChat
