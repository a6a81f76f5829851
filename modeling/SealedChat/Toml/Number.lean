import SealedChat.Toml.Item
import SealedChat.Toml.Text

/-!
# Numbers and dates

Integers are those of 64 bits with a sign. Underscores may stand between the digits of a number.
-/

namespace SealedChat.Toml

open Reading

/-! ## Integers -/

/-- Digits of a kind, with single underscores between them, which are left out. -/
def digits (kind : Char → Bool) : Reading (List Char) := do
  let c ← one kind
  return c :: (← many ((do exactly '_'; one kind) <|> one kind))

def sign : Reading (Option Char) := attempt (one fun c => c = '+' || c = '-')

/-- The digits of a decimal number, which starts with a zero only if it is one. -/
def decimalDigits : Reading (List Char) := do
  match ← peek with
  | some '0' =>
    exactly '0'
    return ['0']
  | _ => digits (Digits.isOf 10)

/-- The number fits into 64 bits with a sign. -/
def fitsWord : Int → Bool
  | .ofNat n | .negSucc n => n < Nat.pow 2 63

def int64 (n : Int) : Reading Item := if fitsWord n then return .integer n else failure

/-- The number that digits spell, read as far as it can fit. -/
def magnitude (base : Nat) (digits : List Char) : Nat :=
  Digits.numberTo (Nat.pow 2 63 + 1) base digits

/-- A number of another base, marked by a letter after a zero. -/
def marked (letter : Char) (base : Nat) : Reading Item := do
  literal ['0', letter]
  int64 (magnitude base (← digits (Digits.isOf base)))

def decimal : Reading Item := do
  let s ← sign
  let n : Int := magnitude 10 (← decimalDigits)
  int64 (if s = some '-' then -n else n)

def integer : Reading Item := marked 'x' 16 <|> marked 'o' 8 <|> marked 'b' 2 <|> decimal

/-! ## Numbers with a fraction or an exponent -/

/-- The digits of a number are `digits * 10 ^ exponent`, and that is too large for a number of 64
bits: halfway beyond the largest of them or more, which takes 309 digits in front of the point. -/
def overflows (digits : List Char) (exponent : Int) : Bool :=
  let significant := digits.dropWhile (· = '0')
  let size := significant.length + exponent
  if significant = [] ∨ size ≤ 308 then false
  else if 309 < size then true
  else
    let whole := (significant ++ List.replicate 309 '0').take 309
    decide (Nat.pow 2 1024 - Nat.pow 2 970 ≤ Digits.number 10 whole)

def fraction : Reading (List Char) := do
  exactly '.'
  digits (Digits.isOf 10)

/-- An exponent, which is read until it has come to 65536. -/
def exponent : Reading Int := do
  let _ ← one fun c => c = 'e' || c = 'E'
  let s ← sign
  let n : Int := Digits.numberTo 65536 10 (← digits (Digits.isOf 10))
  return if s = some '-' then -n else n

/-- A number with a fraction, an exponent, or both. What overflows upwards is not a number. -/
def fractional : Reading Item := do
  let s ← sign
  let whole ← decimalDigits
  let part ← attempt fraction
  let power ← attempt exponent
  refuse (part.isNone && power.isNone)
  let part := part.getD []
  let power := power.getD 0
  refuse (s != some '-' && overflows (whole ++ part) (power - part.length))
  return .float (String.ofList (s.toList ++ whole ++ '.' :: part ++ 'e' :: (toString power).toList))

def special : Reading Item := do
  let s ← sign
  let name ← (do literal "inf".toList; return "inf") <|> (do literal "nan".toList; return "nan")
  return .float (String.ofList s.toList ++ name)

def float : Reading Item := fractional <|> special

/-! ## Dates and times -/

/-- A number of `width` digits between two bounds. -/
def bounded (width low high : Nat) : Reading Nat := do
  let n := Digits.number 10 (← times (Digits.isOf 10) width)
  if low ≤ n ∧ n ≤ high then return n else failure

def daysIn (year month : Nat) : Nat :=
  match month with
  | 2 => if year % 4 = 0 ∧ (year % 100 ≠ 0 ∨ year % 400 = 0) then 29 else 28
  | 4 | 6 | 9 | 11 => 30
  | _ => 31

def day : Reading Unit := do
  let year ← bounded 4 0 9999
  exactly '-'
  let month ← bounded 2 1 12
  exactly '-'
  let _ ← bounded 2 1 (daysIn year month)

def time : Reading Unit := do
  let _ ← bounded 2 0 23
  exactly ':'
  let _ ← bounded 2 0 59
  exactly ':'
  let _ ← bounded 2 0 60
  let _ ← attempt (do exactly '.'; span₁ (Digits.isOf 10))

/-- The distance of a local time from universal time. -/
def zone : Reading Unit :=
  (do let _ ← one fun c => c = 'Z' || c = 'z') <|> do
    let _ ← one fun c => c = '+' || c = '-'
    let _ ← bounded 2 0 23
    exactly ':'
    let _ ← bounded 2 0 59

/-- A day, a time, or a day with a time and perhaps its distance from universal time. -/
def dateParts : Reading Unit :=
  (do
    day
    let _ ← attempt do
      let _ ← one fun c => c = 'T' || c = 't' || c = ' '
      time
      let _ ← attempt zone) <|> time

def date : Reading Item := fun s =>
  (dateParts s).map fun (_, r) => (.date (String.ofList (s.take (s.length - r.length))), r)

def boolean : Reading Item :=
  (do literal "true".toList; return .boolean true) <|>
    (do literal "false".toList; return .boolean false)

/-- A value without parts. -/
def scalar : Reading Item :=
  (do return .string (← text)) <|> date <|> float <|> integer <|> boolean

end SealedChat.Toml
