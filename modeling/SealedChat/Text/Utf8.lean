import SealedChat.Bytes

/-!
# Text as bytes

UTF-8, written and read. Reading goes byte by byte: at a boundary the lead byte says how many
bytes the character still owes and which values the next one may have, and a byte outside that
range breaks the character off. `pieces` lists what is read in order, a character or a broken
part; text is valid when no part is broken (`decode?`), and `decodeLossy` shows each broken part
as one replacement character.
-/

namespace SealedChat.Utf8

/-! ## Writing -/

/-- The bytes of one character: one to four, by the size of its code point. -/
def encodeChar (c : Char) : Bytes :=
  let v := c.toNat
  if v < 0x80 then [UInt8.ofNat v]
  else if v < 0x800 then [UInt8.ofNat (0xC0 + v / 64), UInt8.ofNat (0x80 + v % 64)]
  else if v < 0x10000 then
    [UInt8.ofNat (0xE0 + v / 4096), UInt8.ofNat (0x80 + v / 64 % 64), UInt8.ofNat (0x80 + v % 64)]
  else
    [UInt8.ofNat (0xF0 + v / 262144), UInt8.ofNat (0x80 + v / 4096 % 64),
      UInt8.ofNat (0x80 + v / 64 % 64), UInt8.ofNat (0x80 + v % 64)]

def encodeChars (cs : List Char) : Bytes := cs.flatMap encodeChar

def encode (s : String) : Bytes := encodeChars s.toList

/-- The number of bytes a text takes. -/
def size (s : String) : Nat := (encode s).length

/-! ## Reading -/

/-- A character that has begun: the value so far, the bytes still owed, and the range of the next
one. -/
structure Partial where
  value : Nat
  owed : Nat
  low : Nat
  high : Nat

/-- What a byte at a boundary starts. -/
inductive Lead where
  | char (c : Char)
  | more (p : Partial)
  | broken

/-- The reading of a lead byte. The ranges leave out overlong forms, surrogates and values above
the last code point. -/
def lead (b : UInt8) : Lead :=
  let v := b.toNat
  if v < 0x80 then .char (Char.ofNat v)
  else if v < 0xC2 then .broken
  else if v < 0xE0 then .more ⟨v - 0xC0, 1, 0x80, 0xBF⟩
  else if v < 0xF0 then
    .more ⟨v - 0xE0, 2, if v = 0xE0 then 0xA0 else 0x80, if v = 0xED then 0x9F else 0xBF⟩
  else if v < 0xF5 then
    .more ⟨v - 0xF0, 3, if v = 0xF0 then 0x90 else 0x80, if v = 0xF4 then 0x8F else 0xBF⟩
  else .broken

/-- The characters (`some`) and broken parts (`none`) of a byte string, read on from a character
that may have begun. -/
def piecesFrom : Option Partial → Bytes → List (Option Char)
  | none, [] => []
  | some _, [] => [none]
  | none, b :: r =>
    match lead b with
    | .char c => some c :: piecesFrom none r
    | .more p => piecesFrom (some p) r
    | .broken => none :: piecesFrom none r
  | some p, b :: r =>
    if p.low ≤ b.toNat ∧ b.toNat ≤ p.high then
      let value := p.value * 64 + (b.toNat - 0x80)
      if p.owed = 1 then some (Char.ofNat value) :: piecesFrom none r
      else piecesFrom (some ⟨value, p.owed - 1, 0x80, 0xBF⟩) r
    else
      none :: match lead b with
        | .char c => some c :: piecesFrom none r
        | .more q => piecesFrom (some q) r
        | .broken => none :: piecesFrom none r

def pieces (b : Bytes) : List (Option Char) := piecesFrom none b

/-- The characters of a byte string, if no part of it is broken. -/
def decodeChars? (b : Bytes) : Option (List Char) := (pieces b).mapM id

def decode? (b : Bytes) : Option String := (decodeChars? b).map String.ofList

def isValid (b : Bytes) : Bool := (pieces b).all Option.isSome

/-- The text of a byte string, with U+FFFD for each broken part. -/
def decodeLossy (b : Bytes) : String :=
  String.ofList ((pieces b).map (·.getD '\uFFFD'))

end SealedChat.Utf8
