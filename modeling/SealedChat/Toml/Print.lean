import SealedChat.Text.Words

/-!
# Writing TOML

A document of sections, each a header and entries below it. A string goes between double quotes if
nothing in it has to be escaped there, between single quotes if it can stand there as it is, and
otherwise between three quotes of the first kind that spares it escapes. A string that needs escapes
anyway goes between double quotes.
-/

namespace SealedChat.Toml

inductive Scalar where
  | string (s : String)
  | integer (n : Nat)
  | boolean (b : Bool)
deriving DecidableEq, Repr

/-- Entries below a header. -/
abbrev Section := List (String × Scalar)

/-! ## Strings -/

/-- What a string is written between. Escapes are known to double quotes only. -/
inductive Quotes where
  | double
  | single
  | tripleDouble
  | tripleSingle
deriving DecidableEq, Repr

/-- The longest row of quotes, where `run` of them stand directly before. -/
def longestRow (quote : Char) (run : Nat) : List Char → Nat
  | [] => run
  | c :: r => if c = quote then longestRow quote (run + 1) r else max run (longestRow quote 0 r)

/-- A control character, apart from tabs and line breaks. -/
def needsEscape (c : Char) : Bool := (c < ' ' && c != '\t' && c != '\n') || c = '\x7f'

/-- The quotes for a text: the first that can hold it without escapes, if there are any. Three
quotes can hold line breaks, and rows of up to two quotes. -/
def Quotes.ofText (cs : List Char) : Quotes :=
  let lines := cs.any (· = '\n')
  let plain := !cs.any needsEscape
  let straight := plain && !cs.any (· = '\\')
  if straight && longestRow '"' 0 cs = 0 && !lines then double
  else if plain && longestRow '\'' 0 cs = 0 && !lines then single
  else if straight && longestRow '"' 0 cs ≤ 2 then tripleDouble
  else if plain && longestRow '\'' 0 cs ≤ 2 then tripleSingle
  else if lines then tripleDouble
  else double

/-- `width` upper-case hexadecimal digits. -/
def hexDigits (width n : Nat) : List Char :=
  let ds := (Nat.toDigits 16 n).map Char.toUpper
  List.replicate (width - ds.length) '0' ++ ds

/-- A character between double quotes, unless it is one; between three of them a line break stays
one. -/
def escapedChar (triple : Bool) (c : Char) : List Char :=
  match c with
  | '\x08' => ['\\', 'b']
  | '\t' => ['\\', 't']
  | '\n' => if triple then ['\n'] else ['\\', 'n']
  | '\x0c' => ['\\', 'f']
  | '\r' => ['\\', 'r']
  | '\\' => ['\\', '\\']
  | c => if needsEscape c then '\\' :: 'u' :: hexDigits 4 c.toNat else [c]

/-- A text between double quotes, where `run` of them stand directly before. Between three quotes
every third of a row is escaped, otherwise every one. -/
def spelled (triple : Bool) (run : Nat) : List Char → List Char
  | [] => []
  | c :: r =>
    if c = '"' then
      if triple && run < 2 then '"' :: spelled triple (run + 1) r
      else '\\' :: '"' :: spelled triple 0 r
    else escapedChar triple c ++ spelled triple 0 r

/-- The line break after opening quotes, for a text of several lines, belongs to the quotes. -/
def printString (s : String) : List Char :=
  let cs := s.toList
  let first := if cs.any (· = '\n') then ['\n'] else []
  match Quotes.ofText cs with
  | .double => '"' :: spelled false 0 cs ++ ['"']
  | .single => '\'' :: cs ++ ['\'']
  | .tripleDouble => "\"\"\"".toList ++ first ++ spelled true 0 cs ++ "\"\"\"".toList
  | .tripleSingle => "'''".toList ++ first ++ cs ++ "'''".toList

/-! ## Documents -/

def printScalar : Scalar → List Char
  | .string s => printString s
  | .integer n => Nat.toDigits 10 n
  | .boolean true => "true".toList
  | .boolean false => "false".toList

def printEntry (e : String × Scalar) : List Char :=
  e.1.toList ++ " = ".toList ++ printScalar e.2 ++ ['\n']

def printSection (s : String × Section) : List Char :=
  '[' :: s.1.toList ++ "]\n".toList ++ s.2.flatMap printEntry

/-- Sections with an empty line between neighbours. -/
def print (sections : List (String × Section)) : String :=
  String.ofList (Words.join '\n' (sections.map printSection))

end SealedChat.Toml
