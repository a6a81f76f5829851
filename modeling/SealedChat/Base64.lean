import SealedChat.Text.Utf8

/-!
# Base64

The standard alphabet with required padding. Each byte string has exactly one spelling: a reader
refuses missing or misplaced padding, and a last digit whose unused bits are not zero.
-/

namespace SealedChat.Base64

/-- The character of a digit below 64. -/
def digitChar (d : Nat) : Char :=
  if d < 26 then Char.ofNat (65 + d)
  else if d < 52 then Char.ofNat (71 + d)
  else if d < 62 then Char.ofNat (d - 4)
  else if d = 62 then '+'
  else '/'

/-- The digit of a character of the alphabet. -/
def digit? (c : Char) : Option Nat :=
  let v := c.toNat
  if 65 ≤ v ∧ v ≤ 90 then some (v - 65)
  else if 97 ≤ v ∧ v ≤ 122 then some (v - 71)
  else if 48 ≤ v ∧ v ≤ 57 then some (v + 4)
  else if c = '+' then some 62
  else if c = '/' then some 63
  else none

/-- Three bytes become four digits; one or two bytes at the end are padded. -/
def encodeChars : Bytes → List Char
  | [] => []
  | [a] => [digitChar (a.toNat / 4), digitChar (a.toNat % 4 * 16), '=', '=']
  | [a, b] =>
    [digitChar (a.toNat / 4), digitChar (a.toNat % 4 * 16 + b.toNat / 16),
      digitChar (b.toNat % 16 * 4), '=']
  | a :: b :: c :: r =>
    digitChar (a.toNat / 4) :: digitChar (a.toNat % 4 * 16 + b.toNat / 16) ::
      digitChar (b.toNat % 16 * 4 + c.toNat / 64) :: digitChar (c.toNat % 64) :: encodeChars r

def decodeChars? : List Char → Option Bytes
  | [] => some []
  | [a, b, '=', '='] => do
    let x ← digit? a
    let y ← digit? b
    if y % 16 = 0 then some [UInt8.ofNat (x * 4 + y / 16)] else none
  | [a, b, c, '='] => do
    let x ← digit? a
    let y ← digit? b
    let z ← digit? c
    if z % 4 = 0 then
      some [UInt8.ofNat (x * 4 + y / 16), UInt8.ofNat (y % 16 * 16 + z / 4)]
    else none
  | a :: b :: c :: d :: r => do
    let x ← digit? a
    let y ← digit? b
    let z ← digit? c
    let w ← digit? d
    let rest ← decodeChars? r
    some (UInt8.ofNat (x * 4 + y / 16) :: UInt8.ofNat (y % 16 * 16 + z / 4) ::
      UInt8.ofNat (z % 4 * 64 + w) :: rest)
  | _ => none

/-- The Base64 text of a byte string. -/
def encode (b : Bytes) : String := String.ofList (encodeChars b)

/-- The bytes that a text spells, if it is a Base64 text. -/
def decodeText? (s : String) : Option Bytes := decodeChars? s.toList

/-- The bytes that a line of bytes spells, if the line is a Base64 text. -/
def decode? (line : Bytes) : Option Bytes := decodeChars? (line.map Char.ofUInt8)

/-- The Base64 text of a byte string, as a line of bytes. -/
def encodeLine (b : Bytes) : Bytes := (encodeChars b).map Char.toUInt8

end SealedChat.Base64
