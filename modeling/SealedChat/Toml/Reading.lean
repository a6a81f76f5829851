/-!
# Reading

A reading takes something from the front of a text, or fails. What may fail can be tried: `p <|> q`
starts over from the same place.
-/

namespace SealedChat.Toml

abbrev Reading (α : Type) := StateT (List Char) Option α

namespace Reading

variable {α β : Type}

/-- The next character, if it is of a kind. -/
def one (kind : Char → Bool) : Reading Char
  | [] => none
  | c :: r => if kind c then some (c, r) else none

def exactly (c : Char) : Reading Unit := do
  let _ ← one (· = c)

/-- This text and no other. -/
def literal : List Char → Reading Unit
  | [] => pure ()
  | c :: r => do
    exactly c
    literal r

/-- As many characters of a kind as there are. -/
def span (kind : Char → Bool) : Reading (List Char) :=
  fun s => some (s.takeWhile kind, s.dropWhile kind)

/-- At least one character of a kind. -/
def span₁ (kind : Char → Bool) : Reading (List Char) := do
  let c ← one kind
  return c :: (← span kind)

/-- Exactly `n` characters of a kind. -/
def times (kind : Char → Bool) : (n : Nat) → Reading (List Char)
  | 0 => return []
  | n + 1 => do
    let c ← one kind
    return c :: (← times kind n)

/-- What is next stays there. -/
def peek : Reading (Option Char) := fun s => some (s.head?, s)

def attempt (p : Reading α) : Reading (Option α) := (some <$> p) <|> pure none

/-- As many in a row as there are, up to one for each character of `bound`. -/
def upTo (p : Reading α) : (bound : List Char) → Reading (List α)
  | [] => return []
  | _ :: bound => fun s =>
    match p s with
    | none => some ([], s)
    | some (a, r) => (upTo p bound r).map fun (as, r) => (a :: as, r)

/-- As many in a row as there are. Each takes a character at least, so there cannot be more of them
than characters. -/
def many (p : Reading α) : Reading (List α) := fun s => upTo p s s

/-- One or more with a separator between neighbours. -/
def separated (separator : Reading β) (p : Reading α) : Reading (List α) := do
  let a ← p
  return a :: (← many (separator *> p))

def finished : Reading Unit
  | [] => some ((), [])
  | _ :: _ => none

/-- Fails on condition. -/
def refuse (condition : Bool) : Reading Unit := if condition then failure else pure ()

end Reading

/-! ## Blanks, comments and the ends of lines -/

open Reading

def isGap (c : Char) : Bool := c = ' ' || c = '\t'

def gap : Reading Unit := do
  let _ ← span isGap

def newline : Reading Unit := literal ['\n'] <|> literal ['\r', '\n']

/-- Tabs and everything that is not a control character. -/
def isPrintable (c : Char) : Bool := c = '\t' || (' ' ≤ c && c != '\x7f')

def comment : Reading Unit := do
  exactly '#'
  let _ ← span isPrintable

def lineEnd : Reading Unit := newline <|> finished

/-- What may follow on a line after all has been said. -/
def lineRest : Reading Unit := do
  gap
  let _ ← attempt comment
  lineEnd

/-- Blanks, comments and line breaks between the values of an array. -/
def spread : Reading Unit := do
  let _ ← many ((do let _ ← span₁ isGap) <|> newline <|> (do comment; newline))

end SealedChat.Toml
