import SealedChat.Proofs.Cipher.Aead
import SealedChat.Proofs.SessionCipher

/-!
# Encryption and decryption are inverses

The cipher under a session is exact (`Aead.Exact`): bytes decrypt to a text just if they are what the
text is encrypted to. A message of a session adds the nonce of its number to this, which both
directions derive in the same way, and refuse to derive when the numbers have run out.

Main result: `SessionCrypt.exact_inverse`. For every secret, sender and number, decryption is the inverse
of encryption as a partial function. Below 2⁶³ encryption is defined on just the texts that fit the
stream, and bytes outside of its range are refused. From 2⁶³ on neither is defined anywhere.
-/

namespace SealedChat

namespace SessionCrypt

/-- How the encryption of message `k` from `sender` and its decryption belong together. -/
structure Inverse [CipherSuite] (secrets : Secrets) (sender : Role) (k : Nat) : Prop where
  /-- What decrypts to a text is what the text encrypts to. -/
  opens_iff : ∀ plain cipher,
    decrypt secrets sender k cipher = .ok plain ↔ encrypt secrets sender k plain = .ok cipher
  /-- Every text that fits the stream is encrypted, and becomes sixteen bytes longer. -/
  fits : k < directionBit → ∀ plain : Bytes, ChaChaPoly.fits plain.length = true →
    ∃ cipher, encrypt secrets sender k plain = .ok cipher ∧ cipher.length = plain.length + 16
  /-- A text that does not fit is refused. -/
  tooLong : k < directionBit → ∀ plain : Bytes, ChaChaPoly.fits plain.length = false →
    encrypt secrets sender k plain = .error .encryptionFailed
  /-- Bytes that no text encrypts to are refused, of whatever length they are. -/
  refused : k < directionBit → ∀ cipher, (∀ plain, encrypt secrets sender k plain ≠ .ok cipher) →
    decrypt secrets sender k cipher = .error .decryptionFailed
  /-- Without a number there is neither. -/
  exhausted : directionBit ≤ k → ∀ bytes,
    encrypt secrets sender k bytes = .error .sequenceExhausted ∧
      decrypt secrets sender k bytes = .error .sequenceExhausted

section Suite

variable [CipherSuite] {secrets : Secrets} {sender : Role} {k : Nat} {plain cipher : Bytes}

theorem decrypt_eq_ok_iff_encrypt (h : CipherSuite.session.Exact) :
    decrypt secrets sender k cipher = .ok plain ↔ encrypt secrets sender k plain = .ok cipher := by
  rw [decrypt_eq_ok_iff, encrypt_eq_ok_iff, h]

theorem encrypt_of_none (hk : k < directionBit)
    (h : CipherSuite.session.encrypt secrets.key.block (nonce secrets.iv sender k) plain = none) :
    encrypt secrets sender k plain = .error .encryptionFailed := by
  rw [encrypt_of_lt hk, h]

/-- A message that decrypts has been encrypted, so bytes that nothing encrypts to do not decrypt. -/
theorem decrypt_of_forall_ne (h : CipherSuite.session.Exact) (hk : k < directionBit)
    (hc : ∀ plain, encrypt secrets sender k plain ≠ .ok cipher) :
    decrypt secrets sender k cipher = .error .decryptionFailed := by
  rw [decrypt_of_lt hk]
  cases hd : CipherSuite.session.decrypt secrets.key.block (nonce secrets.iv sender k) cipher with
  | none => rfl
  | some plain => exact absurd (encrypt_eq_ok_iff.2 ⟨hk, h.1 hd⟩) (hc plain)

end Suite

/-- **Encryption and decryption are exact inverses.** -/
theorem exact_inverse (secrets : Secrets) (sender : Role) (k : Nat) :
    @Inverse .standard secrets sender k := by
  let := CipherSuite.standard
  have hexact : CipherSuite.session.Exact := ChaChaPoly.exact_long
  refine ⟨fun plain cipher => ?_, fun hk plain hfits => ?_, fun hk plain hlong => ?_,
    fun hk cipher hc => ?_, fun hk bytes => ?_⟩
  · exact decrypt_eq_ok_iff_encrypt hexact
  · obtain ⟨cipher, hc, -, hlen⟩ :=
      exists_encrypt_of_sound ChaChaPoly.sound_long secrets sender hk hfits
    exact ⟨cipher, hc, hlen⟩
  · exact encrypt_of_none hk (ChaChaPoly.encrypt_of_not_fits hlong)
  · exact decrypt_of_forall_ne hexact hk hc
  · exact ⟨encrypt_of_le hk, decrypt_of_le hk⟩

end SessionCrypt

end SealedChat
