import SealedChat.Text.Digits

/-!
# Socket addresses

A socket address is an address of the Internet Protocol, version 4 or 6, and the number of a socket
there. Version 6 stands between brackets and may name a scope. The functions here take the address
apart from the front: each gives what follows.
-/

namespace SealedChat.SocketAddress

/-- What follows a character that has to be there. -/
def after? (c : Char) : List Char → Option (List Char)
  | [] => none
  | d :: r => if d = c then some r else none

/-- How a number is spelled: its base, how many digits it has at most, whether it may start with
zeros it does not need, and its largest value. -/
structure Spelling where
  base : Nat
  width : Option Nat
  zeros : Bool
  largest : Nat

def octet : Spelling := ⟨10, some 3, false, 255⟩
def group : Spelling := ⟨16, some 4, true, 65535⟩
def socket : Spelling := ⟨10, none, true, 65535⟩
def scope : Spelling := ⟨10, none, true, 4294967295⟩

def afterNumber? (s : Spelling) (cs : List Char) : Option (List Char) :=
  let digits := cs.takeWhile (Digits.isOf s.base)
  if digits = [] ∨ s.width.any (· < digits.length) ∨
      (!s.zeros ∧ digits.head? = some '0' ∧ 1 < digits.length) ∨
      s.largest < Digits.number s.base digits then none
  else some (cs.drop digits.length)

/-- Four octets with dots between them. -/
def afterV4? (cs : List Char) : Option (List Char) := do
  let cs ← afterNumber? octet cs
  let cs ← afterNumber? octet (← after? '.' cs)
  let cs ← afterNumber? octet (← after? '.' cs)
  afterNumber? octet (← after? '.' cs)

/-- As many groups with colons between them as there are, at most `limit`: how many, whether the
last two are an address of version 4, and what follows. -/
def groups : (limit : Nat) → (first : Bool) → List Char → Nat × Bool × List Char
  | 0, _, cs => (0, false, cs)
  | limit + 1, first, cs =>
    let next := if first then some cs else after? ':' cs
    match if limit = 0 then none else next >>= afterV4? with
    | some r => (2, true, r)
    | none =>
      match next >>= afterNumber? group with
      | some r =>
        let (n, v4, r) := groups limit false r
        (n + 1, v4, r)
      | none => (0, false, cs)

/-- Eight groups, or fewer with two colons in one place for groups that are zero. -/
def afterV6? (cs : List Char) : Option (List Char) :=
  match groups 8 true cs with
  | (8, _, r) => some r
  | (_, true, _) => none
  | (n, false, r) => do
    let r ← after? ':' (← after? ':' r)
    return (groups (7 - n) true r).2.2

def afterSocket? (cs : List Char) : Option (List Char) := do
  afterNumber? socket (← after? ':' cs)

def afterScope? (cs : List Char) : Option (List Char) := do
  afterNumber? scope (← after? '%' cs)

def afterBracketed? (cs : List Char) : Option (List Char) := do
  let r ← afterV6? (← after? '[' cs)
  afterSocket? (← after? ']' ((afterScope? r).getD r))

/-- The text is a socket address and nothing else. -/
def isValid (s : String) : Bool :=
  ((afterV4? s.toList >>= afterSocket?) <|> afterBracketed? s.toList) = some []

end SealedChat.SocketAddress
