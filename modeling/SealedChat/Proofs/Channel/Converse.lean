import SealedChat.Proofs.Channel
import SealedChat.Proofs.SealedBox

/-!
# Channels that go on with each other

What one side says over a channel, the other side hears: a text in a box, if it is sealed to the key
of whoever hears it, and a text or payload in a session, if both have counted the same messages.
-/

namespace SealedChat

theorem isSendable_encodeLine (b : Bytes) : IsSendable (Base64.encodeLine b) where
  isValid := Base64.isValid_encodeLine b
  not_mem := ⟨fun hm => (Base64.ne_of_mem_encodeLine hm).1 rfl,
    fun hm => (Base64.ne_of_mem_encodeLine hm).2 rfl⟩

theorem isClean_encodeLine {limit : Nat} {b : Bytes} (h : 4 * ((b.length + 2) / 3) ≤ limit) :
    IsClean limit (Base64.encodeLine b) where
  toIsSendable := isSendable_encodeLine b
  length_le := by rw [Base64.length_encodeLine]; exact h

namespace Dialogue.Converse

variable [CipherSuite] {α β : Type} {l r : Nat} {P : Outcome α → β → Prop} {d' : Dialogue β}
  {q q' : List Bytes} {keys : SealingKeys} {text : String} {f : Channel → Exchange α}

/-- A text that is short enough is sent in a box for the opposite side. -/
theorem say_asymmetric (hs : CipherSuite.Lawful) (hr : 1024 ≤ r) {recipient : PrivateKey}
    (hk : keys.opposite = some recipient.publicKey)
    (ht : Utf8.size text ≤ SealedBox.maxPlaintext)
    (h : ∀ line, Channel.unbox recipient (.ok line) = .ok text →
      Converse l r P (f [.asymmetric keys, .base64]).run d' (q ++ [line]) q') :
    Converse l r P (Channel.say [.asymmetric keys, .base64] text >>= f).run d' q q' := by
  have heq : (Channel.say [.asymmetric keys, .base64] text >>= f).run =
      ofDraw (SealedBox.sealTo recipient.publicKey (Utf8.encode text)).run >>= fun o =>
        Channel.sendBox keys o >>= ExceptT.bindCont f := by
    rw [Channel.say_asymmetric keys text hk]
    exact bind_assoc ..
  rw [heq]
  refine .draw ((SealedBox.always_sealTo hs recipient ht).mono fun o ho => ?_)
  obtain ⟨box, rfl, hopen, hlen⟩ := ho
  have hsize : (Utf8.encode text).length ≤ 512 := ht
  have hclean : IsClean r (Base64.encodeLine box) := by
    refine isClean_encodeLine (Nat.le_trans ?_ hr)
    rw [hlen, SealedBox.overhead]
    omega
  exact .sendLeft hclean (h _ (Channel.unbox_eq_ok_iff.2 ⟨box, rfl, hopen⟩))

/-- A text in a box is heard by whoever the box is for. -/
theorem hear_asymmetric {limit : Option Duration} {line : Bytes}
    {f : String × Channel → Exchange α} (hu : Channel.unbox keys.own (.ok line) = .ok text)
    (h : Converse l r P (f (text, [.asymmetric keys, .base64])).run d' q q') :
    Converse l r P (Channel.hear [.asymmetric keys, .base64] limit >>= f).run d' q (line :: q') := by
  rw [Channel.hear_asymmetric]
  refine .receiveLeft ?_
  dsimp only
  rw [hu]
  exact h

/-- The same, where a failure would be told differently. -/
theorem adapt_hear_asymmetric {limit : Option Duration} {line : Bytes} {g : ChatError → ChatError}
    {f : String × Channel → Exchange α} (hu : Channel.unbox keys.own (.ok line) = .ok text)
    (h : Converse l r P (f (text, [.asymmetric keys, .base64])).run d' q q') :
    Converse l r P (ExceptT.adapt g (Channel.hear [.asymmetric keys, .base64] limit) >>= f).run d' q
      (line :: q') := by
  rw [Channel.hear_asymmetric]
  refine .receiveLeft ?_
  dsimp only
  rw [hu]
  exact h

/-! ## Sessions -/

end Dialogue.Converse

variable [CipherSuite]

/-- The line is a message of a session. -/
def Enciphers (secrets : Secrets) (sender : Role) (sequence : Nat) (payload line : Bytes) : Prop :=
  ∃ c, line = Base64.encodeLine c ∧ SessionCrypt.decrypt secrets sender sequence c = .ok payload

/-- A message that is not too long is encrypted to one clean line. -/
theorem exists_enciphers (hs : CipherSuite.Lawful) (limit : Nat) {cipher : SessionCipher}
    {payload : Bytes} (hk : cipher.sent < SessionCrypt.directionBit)
    (hp : ChaChaPoly.fits payload.length) (hl : 4 * ((payload.length + 18) / 3) ≤ limit) :
    ∃ c, cipher.encrypt payload = (.ok c, { cipher with sent := cipher.sent + 1 }) ∧
      IsClean limit (Base64.encodeLine c) ∧
      Enciphers cipher.secrets cipher.role cipher.sent payload (Base64.encodeLine c) := by
  obtain ⟨c, hc, hdec, hlen⟩ := SessionCrypt.exists_encrypt hs hk hp
  refine ⟨c, SessionCipher.encrypt_of_ok hc, isClean_encodeLine ?_, c, rfl, hdec⟩
  rw [hlen]
  exact hl

namespace Dialogue.Converse

variable {α β : Type} {l r : Nat} {P : Outcome α → β → Prop} {d' : Dialogue β} {q q' : List Bytes}
  {cipher : SessionCipher} {text : String}

/-- A short text is sent as the next message of a session. -/
theorem say_symmetric (hs : CipherSuite.Lawful) (hr : 1024 ≤ r) {f : Channel → Exchange α}
    (hk : cipher.sent < SessionCrypt.directionBit) (ht : Utf8.size text ≤ 512)
    (h : ∀ line, Enciphers cipher.secrets cipher.role cipher.sent (Utf8.encode text) line →
      Converse l r P (f [.symmetric { cipher with sent := cipher.sent + 1 }, .base64]).run d'
        (q ++ [line]) q') :
    Converse l r P (Channel.say [.symmetric cipher, .base64] text >>= f).run d' q q' := by
  have ht' : (Utf8.encode text).length ≤ 512 := ht
  have hfits : ChaChaPoly.fits (Utf8.encode text).length :=
    ChaChaPoly.fits_of_le (Nat.le_trans ht' (by decide))
  obtain ⟨c, hc, hclean, hline⟩ := exists_enciphers hs r hk hfits (by omega)
  rw [Channel.say_symmetric, hc]
  exact .sendLeft hclean (h _ hline)

/-- The next message of the other end is heard. -/
theorem hear_symmetric {limit : Option Duration} {line : Bytes} {f : String × Channel → Exchange α}
    (hl : Enciphers cipher.secrets cipher.role.other cipher.received (Utf8.encode text) line)
    (h : Converse l r P
      (f (text, [.symmetric { cipher with received := cipher.received + 1 }, .base64])).run d' q q') :
    Converse l r P (Channel.hear [.symmetric cipher, .base64] limit >>= f).run d' q (line :: q') := by
  obtain ⟨c, rfl, hdec⟩ := hl
  have hd := Channel.decipher_eq_ok_iff.2 ⟨c, rfl, hdec, rfl⟩
  rw [Channel.hear_symmetric]
  refine .receiveLeft ?_
  dsimp only
  rw [hd]
  exact h

end Dialogue.Converse

end SealedChat
