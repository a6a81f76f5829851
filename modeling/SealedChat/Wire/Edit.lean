import SealedChat.Duration
import SealedChat.Text.Substitution
import SealedChat.Text.Utf8

/-!
# Somebody in the middle

What can be done to a line on its way: it can be altered, held back, dropped, doubled, preceded by
another line, or be the last one that gets through.
-/

namespace SealedChat

/-- A change to the bytes of a line. -/
structure Alteration where
  /-- Another line in its place; the other changes are then left out. -/
  text : Option Bytes := none
  /-- Every occurrence of the first text is replaced by the second. -/
  substitute : Option (String × String) := none
  /-- The byte at this place, counted around the line, becomes another one. -/
  alter : Option Nat := none
  /-- Only so many bytes are left. -/
  keep : Option Nat := none

namespace Alteration

/-- The letter `A` at place `n`, and `B` where it was one already. -/
def alterAt (n : Nat) (b : Bytes) : Bytes :=
  b.modify (n % b.length) fun x => if x = 65 then 66 else 65

def apply (a : Alteration) (line : Bytes) : Bytes :=
  match a.text with
  | some other => other
  | none =>
    let line := a.substitute.elim line fun (old, new) =>
      Utf8.encode (Substitution.ofText old new (Utf8.decodeLossy line))
    let line := a.alter.elim line fun n => alterAt n line
    a.keep.elim line line.take

end Alteration

/-- What happens to one line of a run. -/
structure Edit where
  /-- The number of the line, from 0. -/
  index : Nat
  /-- The line, and all after it, wait. -/
  delay : Duration
  /-- The line does not get through, nor does anything after it. -/
  cut : Bool
  /-- The line does not get through. -/
  drop : Bool
  /-- Another line goes first. -/
  before : Option Bytes
  alteration : Alteration
  /-- The line goes twice. -/
  twice : Bool

end SealedChat
