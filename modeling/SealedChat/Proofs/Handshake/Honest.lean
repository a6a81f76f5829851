import SealedChat.Proofs.Channel.Converse
import SealedChat.Proofs.Handshake.Stages

/-!
# Honest handshakes

An initiator that knows the responder's key, and a responder whose store has the initiator's, log in
over a line of Base64 words, whatever random bytes they draw. Both end with the same secrets and the
same identity, and each has counted the one message of the session that the handshake has used.
-/

namespace SealedChat

/-! ## The sizes of messages -/

namespace Handshake.Message

open Utf8

theorem size_encode_block {n : Nat} (b : Block n) :
    size (Base64.encode b.bytes) = 4 * ((n + 2) / 3) := by
  rw [Base64.size_encode, b.length_bytes]

/-- Who introduces itself needs 59 bytes besides its name. -/
theorem size_encode_authenticate (name : String) (c : Challenge) :
    size (authenticate name c).encode = size name + 59 := by
  have he : (authenticate name c).encode =
    authenticateCommand ++ " " ++ name ++ " " ++ c.toBase64 := rfl
  have hc : size c.toBase64 = 44 := size_encode_block c.block
  rw [he]
  simp only [size_append, hc, show size authenticateCommand = 13 by decide,
    show size " " = 1 by decide]
  omega

theorem size_encode_accept (ca cb : Challenge) (s : Secrets) :
    size (accept ca cb s).encode = 163 := by
  have he : (accept ca cb s).encode = acceptCommand ++ " " ++ ca.toBase64 ++ " " ++ cb.toBase64 ++
    " " ++ s.key.toBase64 ++ " " ++ s.iv.toBase64 := rfl
  have hca : size ca.toBase64 = 44 := size_encode_block ca.block
  have hcb : size cb.toBase64 = 44 := size_encode_block cb.block
  have hk : size s.key.toBase64 = 44 := size_encode_block s.key.block
  have hv : size s.iv.toBase64 = 24 := size_encode_block s.iv.block
  rw [he]
  simp only [size_append, hca, hcb, hk, hv, show size acceptCommand = 3 by decide,
    show size " " = 1 by decide]

theorem size_encode_confirm (c : Challenge) : size (confirm c).encode = 44 :=
  size_encode_block c.block

/-- The longest message, in bytes, is an answer. -/
def maxSize : Nat := 163

theorem size_encode_le_maxSize {m : Message} (h : m.IsValid) : size m.encode ≤ maxSize := by
  cases m with
  | authenticate name c =>
    have hn : size name ≤ 64 := h.2.1
    rw [size_encode_authenticate, maxSize]
    omega
  | accept ca cb s => exact (size_encode_accept ca cb s).le
  | confirm c =>
    rw [size_encode_confirm]
    decide

/-- Every message is short enough for a box. -/
theorem size_encode_le {m : Message} (h : m.IsValid) : size m.encode ≤ SealedBox.maxPlaintext :=
  Nat.le_trans (size_encode_le_maxSize h) (by decide)

end Handshake.Message

/-! ## The stages of either side -/

namespace Handshake

open Dialogue

variable [CipherSuite] {β : Type} {l r : Nat} {P : Outcome Secured → β → Prop} {d' : Dialogue β}
  {q q' : List Bytes} {identity : String} {limit : Duration} {secrets : Secrets}

/-- The line is a box for the holder of `own` with this message. -/
def Tells (own : PrivateKey) (m : Message) (line : Bytes) : Prop :=
  Channel.unbox own (.ok line) = .ok m.encode

/-- An initiator that knows the other side's key says who it is. -/
theorem converse_introduce (hs : CipherSuite.Lawful) (hr : 1024 ≤ r)
    (hi : Principal.IsValid identity) {keys : SealingKeys} {server : PrivateKey}
    (hk : keys.opposite = some server.publicKey)
    (h : ∀ c line, Tells server (.authenticate identity c) line →
      Converse l r P (awaitReply ⟨identity, .challengeSent c⟩ [.asymmetric keys, .base64] identity
        limit).run d' (q ++ [line]) q') :
    Converse l r P (introduce keys [.base64] ⟨identity, .init⟩ identity limit).run d' q q' := by
  refine Converse.draw_exchange ?_
  rw [Initiator.start_eq]
  intro c
  dsimp only [Draw.Always]
  rw [Initiator.startWith_of_init rfl]
  have hv : (Message.authenticate identity ⟨c⟩).IsValid := hi
  exact Converse.say_asymmetric hs hr hk (Message.size_encode_le hv) (h ⟨c⟩)

/-- An initiator whose challenge is answered returns the other side's challenge. -/
theorem converse_awaitReply (hs : CipherSuite.Lawful) (hr : 1024 ≤ r) {keys : SealingKeys}
    {ca cb : Challenge} {line : Bytes} (hl : Tells keys.own (.accept ca cb secrets) line)
    (h : ∀ line, Enciphers secrets .initiator 0 (Utf8.encode (Message.confirm cb).encode) line →
      Converse l r P (.done (.ok ⟨⟨secrets, .initiator, 1, 0⟩, [.base64], identity⟩)) d'
        (q ++ [line]) q') :
    Converse l r P (awaitReply ⟨identity, .challengeSent ca⟩ [.asymmetric keys, .base64] identity
      limit).run d' q (line :: q') := by
  refine Converse.adapt_hear_asymmetric hl ?_
  dsimp only
  rw [Initiator.onReply_of_accept rfl]
  have hv : (Message.confirm cb).IsValid := trivial
  exact Converse.say_symmetric hs hr (show 0 < SessionCrypt.directionBit by decide)
    (Message.size_encode_le hv) h

/-- A responder to whom somebody has introduced itself looks up the key. -/
theorem converse_hearAndAnswer (hi : Principal.IsValid identity) {client : PrivateKey}
    {own : SealingKeys} {store : KeyStore} (hstore : store.find identity = .ok client.publicKey)
    {first : Option Duration} {ca : Challenge} {line : Bytes}
    (hl : Tells own.own (.authenticate identity ca) line)
    (h : Converse l r P (answerAndWait { own with opposite := some client.publicKey } [.base64]
      ⟨some identity, .init⟩ ca limit).run d' q q') :
    Converse l r P (hearAndAnswer own [.base64] store first limit).run d' q (line :: q') := by
  refine Converse.hear_asymmetric hl ?_
  dsimp only
  rw [Responder.onAuthenticate_new hi]
  show Converse l r P (Exchange.ofOutcome (store.find identity) >>= fun key =>
    answerAndWait { own with opposite := some key } [.base64] ⟨some identity, .init⟩ ca limit).run
    d' q q'
  rw [hstore]
  exact h

/-- A responder that knows the other side's key answers its challenge. -/
theorem converse_answerAndWait (hs : CipherSuite.Lawful) (hr : 1024 ≤ r) {keys : SealingKeys}
    {client : PrivateKey} (hk : keys.opposite = some client.publicKey) {ca : Challenge}
    (h : ∀ cb secrets line, Tells client (.accept ca cb secrets) line →
      Converse l r P (awaitConfirmation ⟨some identity, .awaitingConfirmation cb⟩ secrets [.base64]
        limit).run d' (q ++ [line]) q') :
    Converse l r P (answerAndWait keys [.base64] ⟨some identity, .init⟩ ca limit).run d' q q' := by
  refine Converse.draw_exchange ?_
  rw [Responder.reply_eq ⟨rfl, rfl⟩]
  intro cb k v
  have hv : (Message.accept ca ⟨cb⟩ ⟨⟨k⟩, ⟨v⟩⟩).IsValid := trivial
  exact Converse.say_asymmetric hs hr hk (Message.size_encode_le hv) (h ⟨cb⟩ ⟨⟨k⟩, ⟨v⟩⟩)

/-- A responder whose challenge comes back believes who is there. -/
theorem converse_awaitConfirmation {cb : Challenge} {line : Bytes}
    (hl : Enciphers secrets .initiator 0 (Utf8.encode (Message.confirm cb).encode) line)
    (h : Converse l r P (.done (.ok ⟨⟨secrets, .responder, 0, 1⟩, [.base64], identity⟩)) d' q q') :
    Converse l r P (awaitConfirmation ⟨some identity, .awaitingConfirmation cb⟩ secrets [.base64]
      limit).run d' q (line :: q') := by
  refine Converse.hear_symmetric hl ?_
  dsimp only
  rw [Responder.onConfirm_of_confirm rfl rfl]
  exact h

/-! ## The whole -/

/-- Both sides have the same secrets and identity, and have counted one message. -/
def Agreed (identity : String) (a b : Secured) : Prop :=
  ∃ secrets, a = ⟨⟨secrets, .initiator, 1, 0⟩, [.base64], identity⟩ ∧
    b = ⟨⟨secrets, .responder, 0, 1⟩, [.base64], identity⟩

/-- **An honest handshake succeeds on both sides**, and both agree. -/
theorem converse_initiate_respond (hs : CipherSuite.Lawful) (hl : 1024 ≤ l) (hr : 1024 ≤ r)
    (hi : Principal.IsValid identity) {client server : PrivateKey} {store : KeyStore}
    (hstore : store.find identity = .ok client.publicKey) (pinned : Option PublicKey)
    (limit limit' : Duration) (first : Option Duration) :
    Converse l r (fun o o' => ∃ a b, o = .ok a ∧ o' = .ok b ∧ Agreed identity a b)
      (initiate ⟨client, some server.publicKey⟩ [.base64] identity limit)
      (respond ⟨server, pinned⟩ [.base64] store first limit') [] [] := by
  rw [initiate_eq rfl hi, respond_eq]
  refine .orClose (converse_introduce hs hr hi rfl fun ca hello hhello => ?_)
  refine .swap (converse_hearAndAnswer hi hstore hhello ?_)
  refine converse_answerAndWait hs hl rfl fun cb secrets reply hreply => ?_
  refine .swap (converse_awaitReply hs hr hreply fun confirm hconfirm => ?_)
  exact .swap (converse_awaitConfirmation hconfirm (.done ⟨_, _, rfl, rfl, secrets, rfl, rfl⟩))

end Handshake

end SealedChat
