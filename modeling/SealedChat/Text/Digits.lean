/-!
# Digits

Numbers as texts, in a base of up to sixteen.
-/

namespace SealedChat.Digits

/-- The value of a digit; the letters from `a` to `f` go on after nine, in either case. -/
def value? (c : Char) : Option Nat :=
  if '0' ≤ c ∧ c ≤ '9' then some (c.toNat - '0'.toNat)
  else if 'a' ≤ c ∧ c ≤ 'f' then some (c.toNat - 'a'.toNat + 10)
  else if 'A' ≤ c ∧ c ≤ 'F' then some (c.toNat - 'A'.toNat + 10)
  else none

def isOf (base : Nat) (c : Char) : Bool := (value? c).any (· < base)

/-- The number that digits spell. -/
def number (base : Nat) (digits : List Char) : Nat :=
  digits.foldl (fun n c => n * base + (value? c).getD 0) 0

/-- The number that digits spell, read until it has come to `bound`; the rest of the digits is passed
over. -/
def numberTo (bound base : Nat) (digits : List Char) : Nat :=
  digits.foldl (fun n c => if n < bound then n * base + (value? c).getD 0 else n) 0

/-- The number below `bound` that a text spells: decimal digits, perhaps after a plus sign. -/
def read? (bound : Nat) (s : String) : Option Nat :=
  let digits := match s.toList with
    | '+' :: r => r
    | cs => cs
  if digits ≠ [] ∧ digits.all (isOf 10) ∧ number 10 digits < bound then some (number 10 digits)
  else none

end SealedChat.Digits
