import SealedChat.Proofs.Cipher.Aead
import SealedChat.Proofs.SealedBox

/-!
# Which bytes are sealed boxes

A box is a one-time public key, a nonce and a text encrypted under a key that both are mixed into
(`IsBox`). Who opens bytes cuts them into these parts and derives the key from its own private key
and the one-time public key that it finds. Who seals derives it from the one-time private key and the
public key of the recipient. The two come to one key if the curve lets them agree.

* *Sealing.* It draws a one-time key and then a nonce, or nothing if the text is too long
  (`runs_sealTo_iff`), so its result is known from what the two draws are answered.
* *Opening.* Every sequence of at least sixty bytes has the parts of a box (`exists_parts`), and the
  encryption is exact, so bytes open just if they are a box.

Main result: `boxes_exact`. Only the round trip needs an agreement, and only that of the two keys.
-/

namespace SealedChat

namespace SealedBox

variable [CipherSuite]

/-- The bytes are a one-time key, a nonce, and the text encrypted under the key that the holder of
`own` derives for them. -/
def IsBox (own : PrivateKey) (plain box : Bytes) : Prop :=
  ∃ (oneTime : PublicKey) (nonce : Block 12) (body : Bytes),
    box = oneTime.block.bytes ++ nonce.bytes ++ body ∧
    ChaChaPoly.encrypt
      (Hkdf.derive (oneTime.block.bytes ++ own.publicKey.block.bytes) (own.shared oneTime).bytes
        (Utf8.encode "secure-chat sealed v1")) nonce plain = some body

/-- How boxes for the holder of a key are sealed and opened. -/
structure Boxes (own : PrivateKey) : Prop where
  /-- Sealing succeeds just if the text has at most 512 bytes and both draws are answered. -/
  seals_iff : ∀ plain answers,
    (∃ box, (sealTo own.publicKey plain).run.Runs answers (.ok box)) ↔
      plain.length ≤ 512 ∧ ∃ (oneTime : Block 32) (nonce : Block 12),
        answers = [⟨32, some oneTime⟩, ⟨12, some nonce⟩]
  /-- What is sealed is 60 bytes longer, and opens for the holder of the key. -/
  round_trip : ∀ plain (oneTime : Block 32) (nonce : Block 12) box,
    (sealTo own.publicKey plain).run.Runs [⟨32, some oneTime⟩, ⟨12, some nonce⟩] (.ok box) →
    box.length = plain.length + 60 ∧
      (own.shared (PrivateKey.publicKey ⟨oneTime⟩) = PrivateKey.shared ⟨oneTime⟩ own.publicKey →
        openWith own box = .ok plain)
  /-- A text that is too long is refused before anything is drawn. -/
  oversized : ∀ plain : Bytes, 512 < plain.length → ∀ answers result,
    (sealTo own.publicKey plain).run.Runs answers result ↔
      answers = [] ∧ result = .error (.oversizedPayload plain.length)
  /-- A draw that is refused is the last one. -/
  starved : ∀ plain : Bytes, plain.length ≤ 512 → ∀ answers e,
    (sealTo own.publicKey plain).run.Runs answers (.error e) →
      e = .entropyExhausted ∧ (answers = [⟨32, none⟩] ∨
        ∃ oneTime : Block 32, answers = [⟨32, some oneTime⟩, ⟨12, none⟩])
  /-- Bytes open to a text just if they are a box that holds it. -/
  opens_iff : ∀ box plain, openWith own box = .ok plain ↔ IsBox own plain box
  /-- All other bytes are refused, and those that are shorter than any box before they are cut. -/
  refused : ∀ box, (∀ plain, ¬IsBox own plain box) →
    openWith own box = .error (.decoding (if box.length < 60 then "Asymmetric ciphertext too short"
      else "Asymmetric decryption failed"))
  /-- Bytes that are not too short are cut within their bounds. -/
  parts : ∀ box : Bytes, 60 ≤ box.length →
    (Block.ofPrefix 32 box).bytes ++ (Block.ofPrefix 12 (box.drop 32)).bytes ++ box.drop 44 = box

/-! ## Opening -/

variable {own : PrivateKey} {plain box : Bytes}

theorem openWith_eq_ok_iff (hbox : CipherSuite.box = ChaChaPoly.short) :
    openWith own box = .ok plain ↔ IsBox own plain box := by
  have hexact : CipherSuite.box.Exact := hbox ▸ ChaChaPoly.exact_short
  constructor
  · intro h
    obtain ⟨oneTime, nonce, body, rfl, hbody⟩ := exists_parts (overhead_le_length h)
    rw [openWith_append _ _ _ hbody] at h
    cases hdec : CipherSuite.box.decrypt (key (own.shared oneTime) oneTime own.publicKey) nonce
        body with
    | none => simp [hdec] at h
    | some text =>
      obtain rfl : text = plain := by simpa [hdec] using h
      have henc := hexact.1 hdec
      rw [hbox] at henc
      exact ⟨oneTime, nonce, body, rfl, henc⟩
  · rintro ⟨oneTime, nonce, body, rfl, henc⟩
    have hlen := ChaChaPoly.length_encrypt henc
    have hdec : CipherSuite.box.decrypt (key (own.shared oneTime) oneTime own.publicKey) nonce
        body = some plain := by
      rw [hexact, hbox]
      exact henc
    rw [openWith_append _ _ _ (by omega), hdec, Option.elim_some]

theorem openWith_of_not_isBox (hbox : CipherSuite.box = ChaChaPoly.short)
    (h : ∀ plain, ¬IsBox own plain box) :
    openWith own box = .error (.decoding (if box.length < 60 then "Asymmetric ciphertext too short"
      else "Asymmetric decryption failed")) := by
  by_cases hlen : box.length < 60
  · rw [if_pos hlen]
    exact openWith_of_lt own hlen
  · rw [if_neg hlen]
    have hnone : ∀ plain, openWith own box ≠ .ok plain := by
      intro plain hopen
      exact h plain ((openWith_eq_ok_iff hbox).1 hopen)
    obtain ⟨oneTime, nonce, body, rfl, hbody⟩ := exists_parts (Nat.le_of_not_lt hlen)
    rw [openWith_append _ _ _ hbody] at hnone ⊢
    cases hdec : CipherSuite.box.decrypt (key (own.shared oneTime) oneTime own.publicKey) nonce
        body with
    | none => rfl
    | some text =>
      rw [hdec] at hnone
      exact absurd rfl (hnone text)

omit [CipherSuite] in
theorem ofPrefix_parts (h : overhead ≤ box.length) :
    (Block.ofPrefix 32 box).bytes ++ (Block.ofPrefix 12 (box.drop 32)).bytes ++ box.drop 44 =
      box := by
  obtain ⟨oneTime, nonce, body, rfl, -⟩ := exists_parts h
  have hk := oneTime.block.length_bytes
  have hdrop : (oneTime.block.bytes ++ (nonce.bytes ++ body)).drop 32 = nonce.bytes ++ body :=
    List.drop_left' hk
  have hdrop' : (oneTime.block.bytes ++ nonce.bytes ++ body).drop 44 = body :=
    List.drop_left' (by rw [List.length_append, hk, nonce.length_bytes])
  rw [hdrop', List.append_assoc oneTime.block.bytes, hdrop, Block.ofPrefix_append,
    Block.ofPrefix_append, List.append_assoc]

/-! ## Sealing -/

theorem exists_runs_sealTo_iff (hs : CipherSuite.box.Sound) {recipient : PublicKey}
    {answers : List Draw.Answer} :
    (∃ box, (sealTo recipient plain).run.Runs answers (.ok box)) ↔
      plain.length ≤ maxPlaintext ∧ ∃ (oneTime : Block 32) (nonce : Block 12),
        answers = [⟨32, some oneTime⟩, ⟨12, some nonce⟩] := by
  constructor
  · rintro ⟨box, h⟩
    obtain ⟨hlen, oneTime, nonce, hanswers, -⟩ := eq_of_runs_sealTo h
    exact ⟨hlen, oneTime, nonce, hanswers⟩
  · rintro ⟨hlen, oneTime, nonce, rfl⟩
    obtain ⟨box, hseal, -⟩ := exists_sealWith hs recipient ⟨oneTime⟩ nonce hlen
    exact ⟨box, runs_sealTo hlen hseal⟩

/-! ## The theorem -/

/-- **Sealed boxes round-trip, and nothing else opens.** -/
theorem boxes_exact (hbox : CipherSuite.box = ChaChaPoly.short) (own : PrivateKey) : Boxes own := by
  have hs : CipherSuite.box.Sound := hbox ▸ ChaChaPoly.sound_short
  refine ⟨fun plain answers => exists_runs_sealTo_iff hs, ?_, ?_, ?_,
    fun box plain => openWith_eq_ok_iff hbox, fun box h => openWith_of_not_isBox hbox h,
    fun box h => ofPrefix_parts h⟩
  · intro plain oneTime nonce box h
    obtain ⟨hlen, oneTime', nonce', hanswers, hseal⟩ := eq_of_runs_sealTo h
    obtain ⟨rfl, rfl⟩ : oneTime = oneTime' ∧ nonce = nonce' := by simpa using hanswers
    obtain ⟨box', hseal', hlength⟩ := exists_sealWith hs own.publicKey ⟨oneTime⟩ nonce hlen
    obtain rfl : box = box' := Except.ok.inj (hseal.symm.trans hseal')
    exact ⟨hlength, fun hagree => openWith_of_sealWith hs hagree (by omega) hseal⟩
  · intro plain hlen answers result
    rw [sealTo_of_lt own.publicKey hlen]
    exact Draw.runs_done_iff
  · intro plain hlen answers e h
    generalize hresult : Except.error e = result at h
    cases runs_sealTo_iff.1 h with
    | oversized hlong => exact absurd hlen (Nat.not_le.2 hlong)
    | noKey _ => exact ⟨Except.error.inj hresult, .inl rfl⟩
    | noNonce _ oneTime => exact ⟨Except.error.inj hresult, .inr ⟨oneTime, rfl⟩⟩
    | drawn _ oneTime nonce =>
      obtain ⟨box, hseal, -⟩ := exists_sealWith hs own.publicKey ⟨oneTime⟩ nonce hlen
      rw [hseal] at hresult
      cases hresult

omit [CipherSuite] in
/-- Two keys of the curve in use agree, so what is sealed with the one opens with the other. -/
theorem boxes_exact_of_standard :
    ∃ (suite : CipherSuite) (own : PrivateKey) (oneTime : Block 32) (box : Bytes),
      suite = .standard ∧ suite.box = ChaChaPoly.short ∧ Boxes own ∧
      (sealTo own.publicKey [104, 105]).run.Runs [⟨32, some oneTime⟩, ⟨12, some (.zero 12)⟩]
        (.ok box) ∧
      box.length = 62 ∧ openWith own box = .ok [104, 105] := by
  let suite := CipherSuite.standard
  let own : PrivateKey := ⟨.ofPrefix 32 [16]⟩
  let oneTime : Block 32 := .ofPrefix 32 [24]
  have hagree : own.shared (PrivateKey.publicKey ⟨oneTime⟩) =
      PrivateKey.shared ⟨oneTime⟩ own.publicKey :=
    X25519.shared_publicKey_comm (k := 16) (l := 24) (by decide) (by decide) (by decide +kernel)
  have hboxes : Boxes own := boxes_exact rfl own
  obtain ⟨box, hruns⟩ := (hboxes.seals_iff [104, 105] [⟨32, some oneTime⟩, ⟨12, some (.zero 12)⟩]).2
    ⟨by decide, oneTime, .zero 12, rfl⟩
  obtain ⟨hlen, hopen⟩ := hboxes.round_trip _ _ _ _ hruns
  exact ⟨suite, own, oneTime, box, rfl, rfl, hboxes, hruns, hlen, hopen hagree⟩

end SealedBox

end SealedChat
