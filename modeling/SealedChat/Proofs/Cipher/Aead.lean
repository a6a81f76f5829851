import Mathlib.Tactic.SplitIfs
import SealedChat.Cipher.Aead
import SealedChat.Proofs.Bytes

/-!
# Decryption undoes encryption

Applying the stream twice gives the text back, so each of the two ciphers decrypts what it has
encrypted, and nothing else: bytes that end with the tag of the rest are what some text is encrypted
to. A cipher encrypts every text that is short enough, and makes it sixteen bytes longer.
-/

namespace SealedChat

/-! ## The stream -/

namespace ChaCha20

variable {key : Block 32} {nonce : Block 12} {counter : Nat} {text : Bytes}

@[simp] theorem apply_nil : apply key nonce counter [] = [] := rfl

theorem apply_of_ne_nil (h : text ≠ []) :
    apply key nonce counter text =
      Bytes.xor (text.take 64) (block key nonce counter) ++
        apply key nonce (counter + 1) (text.drop 64) := by
  rw [apply, Bytes.groups_of_ne_nil (by decide) h]
  rfl

theorem length_xor_block (counter : Nat) (text : Bytes) :
    (Bytes.xor (text.take 64) (block key nonce counter)).length = min 64 text.length := by
  rw [Bytes.length_xor, length_block, List.length_take]
  omega

theorem length_drop_lt (h : text ≠ []) : (text.drop 64).length < text.length := by
  have := List.length_pos_iff.2 h
  rw [List.length_drop]
  omega

@[simp] theorem length_apply : (apply key nonce counter text).length = text.length := by
  induction hn : text.length using Nat.strongRecOn generalizing text counter with
  | ind n ih =>
    by_cases h : text = []
    · subst h
      exact hn
    · rw [apply_of_ne_nil h, List.length_append, length_xor_block,
        ih _ (hn ▸ length_drop_lt h) rfl, List.length_drop, hn]
      omega

/-- **The stream cancels itself.** -/
theorem apply_apply : apply key nonce counter (apply key nonce counter text) = text := by
  induction hn : text.length using Nat.strongRecOn generalizing text counter with
  | ind n ih =>
    by_cases h : text = []
    · rw [h, apply_nil, apply_nil]
    · have hx : (Bytes.xor (text.take 64) (block key nonce counter)).length = min 64 text.length :=
        length_xor_block counter text
      have hne : apply key nonce counter text ≠ [] := fun he => by
        have := congrArg List.length he
        rw [length_apply] at this
        exact h (List.length_eq_zero_iff.1 this)
      have htake : (apply key nonce counter text).take 64 =
          Bytes.xor (text.take 64) (block key nonce counter) := by
        rw [apply_of_ne_nil h]
        by_cases hl : 64 ≤ text.length
        · exact List.take_left' (by omega)
        · rw [List.drop_of_length_le (by omega), apply_nil, List.append_nil]
          exact List.take_of_length_le (by omega)
      have hdrop : (apply key nonce counter text).drop 64 =
          apply key nonce (counter + 1) (text.drop 64) := by
        rw [apply_of_ne_nil h]
        by_cases hl : 64 ≤ text.length
        · exact List.drop_left' (by omega)
        · rw [List.drop_of_length_le (l := text) (by omega), apply_nil, List.append_nil]
          exact List.drop_of_length_le (by omega)
      rw [apply_of_ne_nil hne, htake, hdrop, ih _ (hn ▸ length_drop_lt h) rfl,
        Bytes.xor_xor (by rw [length_block, List.length_take]; omega), List.take_append_drop]

end ChaCha20

/-! ## The ciphers -/

namespace ChaChaPoly

variable {key : Block 32} {nonce : Block 12} {plain sealed : Bytes}

theorem encrypt_eq_some_iff :
    encrypt key nonce plain = some sealed ↔ fits plain.length ∧
      sealed = ChaCha20.apply key nonce 1 plain ++
        (tag key nonce (ChaCha20.apply key nonce 1 plain)).bytes := by
  rw [encrypt]
  by_cases h : fits plain.length
  · rw [if_pos h]
    simp [h, eq_comm]
  · rw [if_neg h]
    simp [h]

theorem encrypt_of_not_fits (h : fits plain.length = false) : encrypt key nonce plain = none := by
  simp [encrypt, h]

theorem decrypt_encrypt (h : encrypt key nonce plain = some sealed) :
    decrypt key nonce sealed = some plain := by
  obtain ⟨hfits, rfl⟩ := encrypt_eq_some_iff.1 h
  generalize hbody : ChaCha20.apply key nonce 1 plain = body
  have hlen : body.length = plain.length := by rw [← hbody, ChaCha20.length_apply]
  have htag := (tag key nonce body).length_bytes
  have htotal : (body ++ (tag key nonce body).bytes).length - 16 = body.length := by
    rw [List.length_append, htag, Nat.add_sub_cancel]
  have htake : (body ++ (tag key nonce body).bytes).take body.length = body := List.take_left' rfl
  have hdrop : (body ++ (tag key nonce body).bytes).drop body.length = (tag key nonce body).bytes :=
    List.drop_left' rfl
  simp only [decrypt, htotal, htake, hdrop]
  rw [if_pos ⟨by simp [htag], hlen ▸ hfits, trivial⟩, ← hbody, ChaCha20.apply_apply]

/-- What is decrypted is what was encrypted: a stream with the right tag is one of a text. -/
theorem encrypt_decrypt (h : decrypt key nonce sealed = some plain) :
    encrypt key nonce plain = some sealed := by
  simp only [decrypt] at h
  split_ifs at h with hc
  obtain ⟨-, hfits, htag⟩ := hc
  generalize hbody : sealed.take (sealed.length - 16) = body at h hfits htag
  obtain rfl : ChaCha20.apply key nonce 1 body = plain := Option.some.inj h
  refine encrypt_eq_some_iff.2 ⟨by rwa [ChaCha20.length_apply], ?_⟩
  rw [ChaCha20.apply_apply, ← htag, ← hbody, List.take_append_drop]

theorem decrypt_eq_some_iff :
    decrypt key nonce sealed = some plain ↔ encrypt key nonce plain = some sealed :=
  ⟨encrypt_decrypt, decrypt_encrypt⟩

theorem length_encrypt (h : encrypt key nonce plain = some sealed) :
    sealed.length = plain.length + 16 := by
  rw [(encrypt_eq_some_iff.1 h).2, List.length_append, ChaCha20.length_apply, Block.length_bytes]

theorem fits_of_le {n : Nat} (h : n ≤ 1024) : fits n := by
  have : n / 64 ≤ 1024 / 64 := Nat.div_le_div_right h
  rw [fits, decide_eq_true_eq]
  exact Nat.lt_of_le_of_lt this (by decide)

end ChaChaPoly

/-! ## Laws -/

namespace Aead

variable {n : Nat}

/-- What is encrypted is decrypted to what it was. -/
def Faithful (a : Aead n) : Prop :=
  ∀ {key nonce plain sealed}, a.encrypt key nonce plain = some sealed →
    a.decrypt key nonce sealed = some plain

/-- What is decrypted is what encryption produces, and nothing else. -/
def Exact (a : Aead n) : Prop :=
  ∀ {key nonce plain sealed}, a.decrypt key nonce sealed = some plain ↔
    a.encrypt key nonce plain = some sealed

/-- A faithful cipher that encrypts all texts that fit, and makes them sixteen bytes longer. -/
structure Sound (a : Aead n) : Prop where
  faithful : a.Faithful
  exists_encrypt : ∀ key nonce (plain : Bytes), ChaChaPoly.fits plain.length →
    ∃ sealed, a.encrypt key nonce plain = some sealed ∧ sealed.length = plain.length + 16

end Aead

namespace ChaChaPoly

theorem exact_short : short.Exact := decrypt_eq_some_iff

theorem exact_long : long.Exact := decrypt_eq_some_iff

theorem sound_short : short.Sound where
  faithful h := decrypt_encrypt h
  exists_encrypt _ _ _ h := ⟨_, encrypt_eq_some_iff.2 ⟨h, rfl⟩,
    length_encrypt (encrypt_eq_some_iff.2 ⟨h, rfl⟩)⟩

theorem sound_long : long.Sound where
  faithful h := sound_short.faithful h
  exists_encrypt key nonce := sound_short.exists_encrypt (shorten key nonce).1 (shorten key nonce).2

end ChaChaPoly

end SealedChat
