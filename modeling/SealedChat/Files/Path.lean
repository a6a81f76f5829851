import SealedChat.Text.Words

/-!
# Paths

A path is a text of steps with slashes between them. It is kept as it was written: what the steps
mean is decided where they are walked.
-/

namespace SealedChat

structure Path where
  text : String
deriving DecidableEq, Repr

namespace Path

def steps (p : Path) : List String := Words.ofText '/' p.text

def isAbsolute (p : Path) : Bool := p.text.toList.head? = some '/'

/-- The path of an entry of the directory `p`. -/
def entry (p : Path) (name : String) : Path :=
  if p.text.toList.getLast? = some '/' then ⟨p.text ++ name⟩ else ⟨p.text ++ "/" ++ name⟩

/-! ## The path above -/

/-- A step that leads nowhere else. -/
def isIdle (step : List Char) : Bool := step = [] || step = ['.']

/-- Steps without the idle ones at the end. -/
def settle (steps : List (List Char)) : List (List Char) :=
  (steps.reverse.dropWhile isIdle).reverse

/-- Steps without the last one that is not idle, if there is one. -/
def above? (steps : List (List Char)) : Option (List (List Char)) :=
  match settle steps with
  | [] => none
  | s :: rest => some (settle (s :: rest).dropLast)

/-- The path without its last step. The root and the empty path have nothing above them; a path of
one step has the empty path above it. -/
def parent? (p : Path) : Option Path :=
  match Words.split '/' p.text.toList with
  | [] :: body => (above? body).map fun above => ⟨String.ofList ('/' :: Words.join '/' above)⟩
  | ['.'] :: body =>
    match above? body with
    | none => some ⟨""⟩
    | some above => some ⟨String.ofList (Words.join '/' (['.'] :: above))⟩
  | body => (above? body).map fun above => ⟨String.ofList (Words.join '/' above)⟩

end Path

end SealedChat
