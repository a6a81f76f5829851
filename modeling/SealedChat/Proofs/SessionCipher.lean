import SealedChat.Proofs.Cipher.Suite
import SealedChat.SessionCipher

/-!
# Nonces and counters

No two messages of a session have one nonce, and a cipher moves on by one message at a time.
-/

namespace SealedChat

theorem Role.other_other (r : Role) : r.other.other = r := by
  cases r <;> rfl

theorem Role.other_ne (r : Role) : r.other ≠ r := by
  cases r <;> decide

theorem Role.eq_other_of_ne {r r' : Role} (h : r ≠ r') : r = r'.other := by
  cases r <;> cases r' <;> simp_all [Role.other]

theorem Block.append_right_inj {m n : Nat} {a : Block m} {b c : Block n}
    (h : a.append b = a.append c) : b = c :=
  Block.bytes_inj.1 (List.append_cancel_left (Block.bytes_inj.2 h))

namespace SessionCrypt

variable {iv : Iv} {role role' : Role} {k l : Nat}

/-- A number below the bit of its direction leaves it alone. -/
theorem outbound_or (role : Role) (h : k < directionBit) : outbound role ||| k = outbound role + k := by
  cases role with
  | initiator => rw [outbound, Nat.zero_or, Nat.zero_add]
  | responder =>
    have hor := Nat.two_pow_add_eq_or_of_lt h 1
    rw [Nat.mul_one] at hor
    exact hor.symm

/-- What an end receives is what the other end sends. -/
theorem inbound_eq (role : Role) : inbound role = outbound role.other := by
  cases role with
  | initiator => exact Nat.xor_zero directionBit
  | responder => exact Nat.xor_self directionBit

theorem word_lt (role : Role) (h : k < directionBit) : outbound role ||| k < 256 ^ 8 := by
  have hbits : directionBit + directionBit = 256 ^ 8 := by decide
  have hrole : outbound role ≤ directionBit := by cases role <;> decide
  rw [outbound_or role h]
  omega

theorem word_inj (hk : k < directionBit) (hl : l < directionBit)
    (h : outbound role ||| k = outbound role' ||| l) : role = role' ∧ k = l := by
  rw [outbound_or role hk, outbound_or role' hl] at h
  cases role <;> cases role' <;> simp only [outbound] at h
  · exact ⟨rfl, Nat.add_left_cancel h⟩
  · omega
  · omega
  · exact ⟨rfl, Nat.add_left_cancel h⟩

/-- **Every message of a session has a nonce of its own.** -/
theorem nonce_inj (hk : k < directionBit) (hl : l < directionBit)
    (h : nonce iv role k = nonce iv role' l) : role = role' ∧ k = l := by
  have hb := congrArg Block.bytes (Block.append_right_inj h)
  exact word_inj hk hl (Bytes.bigEndian_injOn (word_lt role hk) (word_lt role' hl) hb)

theorem nonceFor_of_lt (iv : Iv) (role : Role) (h : k < directionBit) :
    nonceFor iv (outbound role) k = .ok (nonce iv role k) := if_pos h

theorem nonceFor_of_le (iv : Iv) (direction : Nat) (h : directionBit ≤ k) :
    nonceFor iv direction k = .error .sequenceExhausted := if_neg (Nat.not_lt.2 h)

variable [CipherSuite] {secrets : Secrets} {plain cipher : Bytes}

theorem encrypt_of_lt (h : k < directionBit) : encrypt secrets role k plain =
    match CipherSuite.session.encrypt secrets.key.block (nonce secrets.iv role k) plain with
    | some c => .ok c
    | none => .error .encryptionFailed := by
  rw [encrypt, nonceFor_of_lt _ _ h]
  rfl

theorem decrypt_of_lt (h : k < directionBit) : decrypt secrets role k cipher =
    match CipherSuite.session.decrypt secrets.key.block (nonce secrets.iv role k) cipher with
    | some p => .ok p
    | none => .error .decryptionFailed := by
  rw [decrypt, nonceFor_of_lt _ _ h]
  rfl

theorem encrypt_of_le (h : directionBit ≤ k) :
    encrypt secrets role k plain = .error .sequenceExhausted := by
  rw [encrypt, nonceFor_of_le _ _ h]
  rfl

theorem decrypt_of_le (h : directionBit ≤ k) :
    decrypt secrets role k cipher = .error .sequenceExhausted := by
  rw [decrypt, nonceFor_of_le _ _ h]
  rfl

theorem encrypt_eq_ok_iff :
    encrypt secrets role k plain = .ok cipher ↔ k < directionBit ∧
      CipherSuite.session.encrypt secrets.key.block (nonce secrets.iv role k) plain =
        some cipher := by
  by_cases h : k < directionBit
  · rw [encrypt_of_lt h]
    split <;> simp_all
  · simp [encrypt_of_le (Nat.not_lt.1 h), h]

theorem decrypt_eq_ok_iff :
    decrypt secrets role k cipher = .ok plain ↔ k < directionBit ∧
      CipherSuite.session.decrypt secrets.key.block (nonce secrets.iv role k) cipher =
        some plain := by
  by_cases h : k < directionBit
  · rw [decrypt_of_lt h]
    split <;> simp_all
  · simp [decrypt_of_le (Nat.not_lt.1 h), h]

/-- A message is encrypted, and decrypts, as long as there are numbers and the text is not too long. -/
theorem exists_encrypt_of_sound (hs : CipherSuite.session.Sound) (secrets : Secrets) (role : Role)
    (hk : k < directionBit) (hp : ChaChaPoly.fits plain.length) :
    ∃ c, encrypt secrets role k plain = .ok c ∧ decrypt secrets role k c = .ok plain ∧
      c.length = plain.length + 16 := by
  obtain ⟨c, hc, hlen⟩ := hs.exists_encrypt secrets.key.block (nonce secrets.iv role k) plain hp
  exact ⟨c, encrypt_eq_ok_iff.2 ⟨hk, hc⟩, decrypt_eq_ok_iff.2 ⟨hk, hs.faithful hc⟩, hlen⟩

theorem length_of_encrypt (hs : CipherSuite.session.Sound) (hp : ChaChaPoly.fits plain.length)
    (h : encrypt secrets role k plain = .ok cipher) : cipher.length = plain.length + 16 := by
  obtain ⟨c, hc, -, hlen⟩ :=
    exists_encrypt_of_sound hs secrets role (encrypt_eq_ok_iff.1 h).1 hp
  obtain rfl : cipher = c := Except.ok.inj (h.symm.trans hc)
  exact hlen

theorem exists_encrypt (hs : CipherSuite.Lawful) (hk : k < directionBit)
    (hp : ChaChaPoly.fits plain.length) :
    ∃ c, encrypt secrets role k plain = .ok c ∧ decrypt secrets role k c = .ok plain ∧
      c.length = plain.length + 16 :=
  exists_encrypt_of_sound hs.session secrets role hk hp

theorem decrypt_of_encrypt (hs : CipherSuite.Lawful) (h : encrypt secrets role k plain = .ok cipher) :
    decrypt secrets role k cipher = .ok plain := by
  obtain ⟨hk, hc⟩ := encrypt_eq_ok_iff.1 h
  exact decrypt_eq_ok_iff.2 ⟨hk, hs.session.faithful hc⟩

end SessionCrypt

namespace SessionCipher

open SessionCrypt

variable [CipherSuite] {s : SessionCipher} {plain cipher : Bytes}

/-- To encrypt is to encrypt as message `sent` of one's own. -/
theorem encrypt_eq (s : SessionCipher) (plain : Bytes) : s.encrypt plain =
    match SessionCrypt.encrypt s.secrets s.role s.sent plain with
    | .ok c => (.ok c, { s with sent := s.sent + 1 })
    | .error e => (.error e, s) := by
  rw [encrypt, SessionCrypt.encrypt]
  cases nonceFor s.secrets.iv (outbound s.role) s.sent with
  | error e => rfl
  | ok nonce =>
    dsimp only [bind, Except.bind]
    cases CipherSuite.session.encrypt s.secrets.key.block nonce plain <;> rfl

/-- To decrypt is to decrypt as message `received` of the other side. -/
theorem decrypt_eq (s : SessionCipher) (cipher : Bytes) : s.decrypt cipher =
    match SessionCrypt.decrypt s.secrets s.role.other s.received cipher with
    | .ok p => (.ok p, { s with received := s.received + 1 })
    | .error e => (.error e, s) := by
  rw [decrypt, SessionCrypt.decrypt, inbound_eq]
  cases nonceFor s.secrets.iv (outbound s.role.other) s.received with
  | error e => rfl
  | ok nonce =>
    dsimp only [bind, Except.bind]
    cases CipherSuite.session.decrypt s.secrets.key.block nonce cipher <;> rfl

theorem encrypt_of_ok (h : SessionCrypt.encrypt s.secrets s.role s.sent plain = .ok cipher) :
    s.encrypt plain = (.ok cipher, { s with sent := s.sent + 1 }) := by
  rw [encrypt_eq, h]

theorem decrypt_of_ok
    (h : SessionCrypt.decrypt s.secrets s.role.other s.received cipher = .ok plain) :
    s.decrypt cipher = (.ok plain, { s with received := s.received + 1 }) := by
  rw [decrypt_eq, h]

theorem decrypt_of_error {e : ChatError}
    (h : SessionCrypt.decrypt s.secrets s.role.other s.received cipher = .error e) :
    s.decrypt cipher = (.error e, s) := by
  rw [decrypt_eq, h]

theorem encrypt_cases (s : SessionCipher) (plain : Bytes) :
    (∃ cipher, SessionCrypt.encrypt s.secrets s.role s.sent plain = .ok cipher ∧
      s.encrypt plain = (.ok cipher, { s with sent := s.sent + 1 })) ∨
    ∃ e, s.encrypt plain = (.error e, s) := by
  cases h : SessionCrypt.encrypt s.secrets s.role s.sent plain with
  | error e => exact .inr ⟨e, by rw [encrypt_eq, h]⟩
  | ok c => exact .inl ⟨c, rfl, encrypt_of_ok h⟩

theorem decrypt_cases (s : SessionCipher) (cipher : Bytes) :
    (∃ plain, SessionCrypt.decrypt s.secrets s.role.other s.received cipher = .ok plain ∧
      s.decrypt cipher = (.ok plain, { s with received := s.received + 1 })) ∨
    ∃ e, s.decrypt cipher = (.error e, s) := by
  cases h : SessionCrypt.decrypt s.secrets s.role.other s.received cipher with
  | error e => exact .inr ⟨e, decrypt_of_error h⟩
  | ok p => exact .inl ⟨p, rfl, decrypt_of_ok h⟩

end SessionCipher

end SealedChat
