import SealedChat.Cipher.Suite
import SealedChat.Proofs.Bytes
import SealedChat.Proofs.Cipher.Aead

/-!
# The laws of a cipher suite

What handshakes and sessions need of the primitives: that both sides of an agreement come to the same
secret, and that both ciphers are sound. The second is proved of the ciphers in use; the first is a
law of the curve, which can be computed for one pair of keys.
-/

namespace SealedChat

namespace X25519

theorem ladder_lt (k u : Nat) : ladder k u < modulus := Nat.mod_lt _ (by decide)

/-- A coordinate is read as it was written. -/
theorem toNat_littleEndian_of_lt {u : Nat} (h : u < modulus) :
    Bytes.toNat (Bytes.littleEndian 32 u) % Nat.pow 2 255 % modulus = u := by
  have hm : modulus < Nat.pow 2 255 := by decide
  have hp : Nat.pow 2 255 < 256 ^ 32 := by decide
  rw [Bytes.toNat_littleEndian, Nat.mod_eq_of_lt (a := u) (by omega),
    Nat.mod_eq_of_lt (a := u) (by omega), Nat.mod_eq_of_lt h]

/-- Two keys agree if their ladders do. -/
theorem shared_publicKey_comm {a b : Block 32} {k l : Nat} (ha : Bytes.toNat a.bytes = k)
    (hb : Bytes.toNat b.bytes = l)
    (h : ladder (clamp k) (ladder (clamp l) 9) = ladder (clamp l) (ladder (clamp k) 9)) :
    shared a (publicKey b) = shared b (publicKey a) := by
  subst ha hb
  have hnine : Bytes.toNat (9 :: List.replicate 31 0) % Nat.pow 2 255 % modulus = 9 := by decide
  simp only [shared, publicKey, toNat_littleEndian_of_lt (ladder_lt _ _), hnine, h]

end X25519

namespace CipherSuite

/-- Both sides of an agreement come to the same secret. -/
def Agrees [CipherSuite] : Prop := ∀ a b, shared a (publicKey b) = shared b (publicKey a)

/-- Both sides of an agreement come to the same secret, and both ciphers are sound. -/
structure Lawful [CipherSuite] : Prop where
  agrees : Agrees
  box : box.Sound
  session : session.Sound

theorem Agrees.lawful [CipherSuite] (h : Agrees) (hb : box = ChaChaPoly.short)
    (hs : session = ChaChaPoly.long) : Lawful where
  agrees := h
  box := hb ▸ ChaChaPoly.sound_short
  session := hs ▸ ChaChaPoly.sound_long

/-! ## One pair of keys -/

/-- The suite in use, except that the curve is asked for the secret of one pair of keys only. Other
pairs get the sum of their public keys. -/
@[reducible] def between (a b : Block 32) : CipherSuite where
  publicKey := X25519.publicKey
  shared own opposite :=
    let mine := X25519.publicKey own
    if mine = X25519.publicKey a ∧ opposite = X25519.publicKey b ∨
        mine = X25519.publicKey b ∧ opposite = X25519.publicKey a then
      X25519.shared a (X25519.publicKey b)
    else ⟨Bytes.xor mine.bytes opposite.bytes, by simp [Block.length_bytes]⟩
  box := ChaChaPoly.short
  session := ChaChaPoly.long

theorem agrees_between (a b : Block 32) : @Agrees (between a b) := by
  intro x y
  by_cases h : X25519.publicKey x = X25519.publicKey a ∧ X25519.publicKey y = X25519.publicKey b ∨
      X25519.publicKey x = X25519.publicKey b ∧ X25519.publicKey y = X25519.publicKey a
  · have h' := h.symm.imp And.symm And.symm
    simp only [shared, publicKey, if_pos h, if_pos h']
  · have h' := fun h' => h (Or.imp And.symm And.symm (Or.symm h'))
    simp only [shared, publicKey, if_neg h, if_neg h', Bytes.xor_comm]

theorem lawful_between (a b : Block 32) : @Lawful (between a b) :=
  @Agrees.lawful (between a b) (agrees_between a b) rfl rfl

end CipherSuite

end SealedChat
