import SealedChat.Bytes

/-!
# The ChaCha20 stream

A state is four rows of four words: the constants, the two halves of the key, and counter and
nonce. A round mixes all four columns at once, row by row; a double round does so once for the
columns and, with the rows turned against each other, once for the diagonals.
-/

namespace SealedChat.ChaCha20

structure Row where
  w0 : UInt32
  w1 : UInt32
  w2 : UInt32
  w3 : UInt32

namespace Row

def map₂ (f : UInt32 → UInt32 → UInt32) (x y : Row) : Row :=
  ⟨f x.w0 y.w0, f x.w1 y.w1, f x.w2 y.w2, f x.w3 y.w3⟩

def add : Row → Row → Row := map₂ (· + ·)

/-- Exclusive or, and then each word turned left by `n` bits. -/
def xorRotate (n : UInt32) : Row → Row → Row :=
  map₂ fun x y => let z := x ^^^ y; (z <<< n) ||| (z >>> (32 - n))

/-- The row with its words moved one place to the left. -/
def turn (x : Row) : Row := ⟨x.w1, x.w2, x.w3, x.w0⟩

def toBytes (x : Row) : Bytes :=
  [x.w0, x.w1, x.w2, x.w3].flatMap fun w => Bytes.littleEndian 4 w.toNat

@[simp] theorem length_toBytes (x : Row) : x.toBytes.length = 16 := by simp [toBytes]

/-- The row that sixteen bytes spell. -/
def ofBytes (b : Bytes) : Row :=
  let word := fun i => UInt32.ofNat (Bytes.toNat ((b.drop (4 * i)).take 4))
  ⟨word 0, word 1, word 2, word 3⟩

end Row

structure State where
  a : Row
  b : Row
  c : Row
  d : Row

namespace State

/-- A quarter round on every column. -/
def mixColumns (s : State) : State :=
  let a := s.a.add s.b
  let d := s.d.xorRotate 16 a
  let c := s.c.add d
  let b := s.b.xorRotate 12 c
  let a := a.add b
  let d := d.xorRotate 8 a
  let c := c.add d
  let b := b.xorRotate 7 c
  ⟨a, b, c, d⟩

/-- Columns, then diagonals. -/
def doubleRound (s : State) : State :=
  let s := s.mixColumns
  let s := mixColumns ⟨s.a, s.b.turn, s.c.turn.turn, s.d.turn.turn.turn⟩
  ⟨s.a, s.b.turn.turn.turn, s.c.turn.turn, s.d.turn⟩

/-- The twenty rounds. -/
def rounds (s : State) : State := (List.range 10).foldl (fun s _ => s.doubleRound) s

def add (s t : State) : State := ⟨s.a.add t.a, s.b.add t.b, s.c.add t.c, s.d.add t.d⟩

end State

/-- The text `expand 32-byte k`. -/
def constants : Row := ⟨0x61707865, 0x3320646e, 0x79622d32, 0x6b206574⟩

/-- The state for a key and a last row. -/
def initial (key : Block 32) (last : Row) : State :=
  ⟨constants, .ofBytes key.bytes, .ofBytes (key.bytes.drop 16), last⟩

/-- Block number `counter` of the stream for a key and a nonce. -/
def block (key : Block 32) (nonce : Block 12) (counter : Nat) : Bytes :=
  let s := initial key (.ofBytes (Bytes.littleEndian 4 counter ++ nonce.bytes))
  let t := s.rounds.add s
  t.a.toBytes ++ t.b.toBytes ++ t.c.toBytes ++ t.d.toBytes

@[simp] theorem length_block (key : Block 32) (nonce : Block 12) (counter : Nat) :
    (block key nonce counter).length = 64 := by simp [block]

/-- The text combined with the stream from block `counter` on. Doing it twice gives the text
back. -/
def apply (key : Block 32) (nonce : Block 12) (counter : Nat) (text : Bytes) : Bytes :=
  ((Bytes.groups 64 text).zipIdx counter).flatMap fun g => Bytes.xor g.1 (block key nonce g.2)

/-- The key that the first sixteen bytes of a long nonce derive. -/
def subkey (key : Block 32) (head : Block 16) : Block 32 :=
  let s := (initial key (.ofBytes head.bytes)).rounds
  ⟨s.a.toBytes ++ s.d.toBytes, by simp⟩

end SealedChat.ChaCha20
