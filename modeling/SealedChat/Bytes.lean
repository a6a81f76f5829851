/-!
# Byte strings

Payloads, keys and ciphertexts are lists of bytes. A `Block n` is a byte string whose length is
known to be `n`: keys, nonces and challenges are blocks, so their lengths never have to be checked
again. Numbers are written in a fixed number of bytes, little end or big end first.
-/

namespace SealedChat

abbrev Bytes := List UInt8

/-- A byte string of exactly `n` bytes. -/
structure Block (n : Nat) where
  bytes : Bytes
  length_bytes : bytes.length = n
deriving DecidableEq

namespace Block

variable {m n : Nat}

/-- A byte string as a block, if it has the right length. -/
def ofBytes? (n : Nat) (b : Bytes) : Option (Block n) :=
  if h : b.length = n then some ⟨b, h⟩ else none

/-- The block of `n` zero bytes. -/
def zero (n : Nat) : Block n := ⟨List.replicate n 0, by simp⟩

/-- The first `n` bytes of `b`, filled up with zeros where `b` is shorter. -/
def ofPrefix (n : Nat) (b : Bytes) : Block n :=
  ⟨(b ++ List.replicate n 0).take n, by simp⟩

def append (a : Block m) (b : Block n) : Block (m + n) :=
  ⟨a.bytes ++ b.bytes, by simp [a.length_bytes, b.length_bytes]⟩

theorem bytes_inj {a b : Block n} : a.bytes = b.bytes ↔ a = b := by
  cases a
  cases b
  simp

theorem ofBytes?_eq_some_iff {b : Bytes} {x : Block n} : ofBytes? n b = some x ↔ x.bytes = b := by
  unfold ofBytes?
  split
  next h =>
    constructor
    · intro hx
      cases hx
      rfl
    · rintro rfl
      rfl
  next h =>
    constructor
    · intro hx
      cases hx
    · rintro rfl
      exact absurd x.length_bytes h

end Block

namespace Bytes

/-- `value` in `width` bytes, the lowest first; what does not fit is cut off. -/
def littleEndian : (width : Nat) → (value : Nat) → Bytes
  | 0, _ => []
  | w + 1, v => UInt8.ofNat v :: littleEndian w (v / 256)

/-- `value` in `width` bytes, the highest first; what does not fit is cut off. -/
def bigEndian (width value : Nat) : Bytes := (littleEndian width value).reverse

/-- The number that a byte string spells, the lowest byte first. -/
def toNat : Bytes → Nat
  | [] => 0
  | b :: r => b.toNat + 256 * toNat r

@[simp] theorem length_littleEndian (w v : Nat) : (littleEndian w v).length = w := by
  induction w generalizing v with
  | zero => rfl
  | succ w ih => simp [littleEndian, ih]

@[simp] theorem length_bigEndian (w v : Nat) : (bigEndian w v).length = w := by simp [bigEndian]

/-- Byte by byte exclusive or, as long as the shorter of the two. -/
def xor (a b : Bytes) : Bytes := List.zipWith (· ^^^ ·) a b

@[simp] theorem length_xor (a b : Bytes) : (xor a b).length = min a.length b.length := by simp [xor]

/-- The groups of `n` bytes that a string splits into; only the last may be shorter. -/
def groups (n : Nat) (b : Bytes) : List Bytes := go b.length b
where
  go : Nat → Bytes → List Bytes
    | 0, _ => []
    | _ + 1, [] => []
    | k + 1, b => b.take n :: go k (b.drop n)

end Bytes

end SealedChat
