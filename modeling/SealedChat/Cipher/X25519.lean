import SealedChat.Bytes

/-!
# Key agreement on Curve25519

Points are known by their first coordinate, a number modulo 2²⁵⁵ - 19. The product of a point and a
scalar is found by the Montgomery ladder, which carries the products by `k` and `k + 1` for the bits
of the scalar read so far.
-/

namespace SealedChat.X25519

def modulus : Nat := Nat.pow 2 255 - 19

def add (a b : Nat) : Nat := (a + b) % modulus
def sub (a b : Nat) : Nat := (a + (modulus - b)) % modulus
def mul (a b : Nat) : Nat := a * b % modulus

/-- The bits from 254 down to 0. -/
def bits (k : Nat) : List Bool := ((List.range 255).map k.testBit).reverse

/-- `a` to the power `e`, by squaring for each bit and multiplying for each one. -/
def power (a e : Nat) : Nat :=
  (bits e).foldl (fun x bit => let y := mul x x; if bit then mul y a else y) 1

/-- The inverse of `a`, and zero for zero. -/
def inverse (a : Nat) : Nat := power a (modulus - 2)

/-- A point as a fraction. -/
structure Point where
  x : Nat
  z : Nat

/-- The double of `p`, and the sum of `p` and `q`, whose difference has coordinate `u`. -/
def step (u : Nat) (p q : Point) : Point × Point :=
  let a := add p.x p.z
  let b := sub p.x p.z
  let aa := mul a a
  let bb := mul b b
  let e := sub aa bb
  let da := mul (sub q.x q.z) a
  let cb := mul (add q.x q.z) b
  let s := add da cb
  let d := sub da cb
  (⟨mul aa bb, mul e (add aa (mul 121665 e))⟩, ⟨mul s s, mul u (mul d d)⟩)

/-- The product of a scalar and the point with coordinate `u`. -/
def ladder (k u : Nat) : Nat :=
  let r := (bits k).foldl
    (fun (p : Point × Point) bit =>
      if bit then let q := step u p.2 p.1; (q.2, q.1) else step u p.1 p.2)
    (⟨1, 0⟩, ⟨u, 1⟩)
  mul r.1.x (inverse r.1.z)

/-- A private key as a scalar: a multiple of eight with bit 254 set. -/
def clamp (k : Nat) : Nat := k % Nat.pow 2 254 / 8 * 8 + Nat.pow 2 254

/-- The secret that a private key and the other side's public key share. The top bit of a public
key is ignored. -/
def shared (own opposite : Block 32) : Block 32 :=
  ⟨Bytes.littleEndian 32
    (ladder (clamp (Bytes.toNat own.bytes)) (Bytes.toNat opposite.bytes % Nat.pow 2 255 % modulus)),
    by simp⟩

/-- The public key of a private key: its product with the point that has coordinate 9. -/
def publicKey (own : Block 32) : Block 32 :=
  shared own ⟨9 :: List.replicate 31 0, by simp⟩

end SealedChat.X25519
