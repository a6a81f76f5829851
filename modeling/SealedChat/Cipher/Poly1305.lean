import SealedChat.Bytes

/-!
# The Poly1305 authenticator

Each group of up to sixteen bytes, with a one byte on top, is a coefficient; the tag is the
polynomial at a secret point modulo 2¹³⁰ - 5, plus a pad.
-/

namespace SealedChat.Poly1305

def modulus : Nat := Nat.pow 2 130 - 5

/-- The secret point, with the bits cleared that it must not have. -/
def clamp (r : Nat) : Nat := r &&& 0x0ffffffc0ffffffc0ffffffc0fffffff

/-- The tag of a message under a key that is used once. -/
def tag (key : Bytes) (message : Bytes) : Block 16 :=
  let r := clamp (Bytes.toNat (key.take 16))
  let pad := Bytes.toNat ((key.drop 16).take 16)
  let sum := (Bytes.groups 16 message).foldl
    (fun acc g => (acc + Bytes.toNat (g ++ [1])) * r % modulus) 0
  ⟨Bytes.littleEndian 16 (sum + pad), by simp⟩

end SealedChat.Poly1305
