import SealedChat.Text.Digits
import SealedChat.Toml.Reading

/-!
# Strings

TOML has four kinds of string: with escapes between double quotes, taken literally between single
quotes, and either of them between three quotes, where line breaks may occur.
-/

namespace SealedChat.Toml

open Reading

/-- A character by its code point, in `n` hexadecimal digits. -/
def codePoint (n : Nat) : Reading Char := do
  let v := Digits.number 16 (← times (Digits.isOf 16) n)
  if v.isValidChar then return Char.ofNat v else failure

/-- What may follow a backslash, and what it stands for. -/
def escaped : Reading Char := do
  match ← one fun _ => true with
  | 'b' => return '\x08'
  | 't' => return '\t'
  | 'n' => return '\n'
  | 'f' => return '\x0c'
  | 'r' => return '\r'
  | '"' => return '"'
  | '\\' => return '\\'
  | 'u' => codePoint 4
  | 'U' => codePoint 8
  | _ => failure

def escape : Reading Char := do
  exactly '\\'
  escaped

/-! ## Strings on one line -/

def basicString : Reading String := do
  exactly '"'
  let cs ← many (one (fun c => isPrintable c && c != '"' && c != '\\') <|> escape)
  exactly '"'
  return String.ofList cs

def literalString : Reading String := do
  exactly '\''
  let cs ← span fun c => isPrintable c && c != '\''
  exactly '\''
  return String.ofList cs

/-! ## Strings over several lines -/

/-- A backslash at the end of a line, and all blanks and line breaks up to the next text. -/
def lineJoin : Reading Unit := do
  exactly '\\'
  gap
  newline
  let _ ← many ((do let _ ← span₁ isGap) <|> newline)

/-- One or two quotes that do not close the string. -/
def looseQuotes (quote : Char) : Reading (List Char) := do
  let quotes ← span₁ (· = quote)
  refuse (2 < quotes.length || (← peek).isNone)
  return quotes

/-- The three quotes that close a string, and up to two before them that belong to it. -/
def closingQuotes (quote : Char) : Reading (List Char) := fun s =>
  let n := (s.takeWhile (· = quote)).length
  if n < 3 then none
  else
    let own := min 2 (n - 3)
    some (List.replicate own quote, s.drop (own + 3))

def brokenLine : Reading (List Char) := do
  newline
  return ['\n']

/-- A string between three quotes, made of pieces. A line break directly after the opening quotes
does not count. -/
def tripleString (quote : Char) (piece : Reading (List Char)) : Reading String := do
  literal [quote, quote, quote]
  let _ ← attempt newline
  let pieces ← many (looseQuotes quote <|> brokenLine <|> piece)
  let last ← closingQuotes quote
  return String.ofList (pieces.flatten ++ last)

def basicPiece : Reading (List Char) :=
  span₁ (fun c => isPrintable c && c != '"' && c != '\\') <|> (do lineJoin; return []) <|>
    (do return [← escape])

def literalPiece : Reading (List Char) := span₁ fun c => isPrintable c && c != '\''

def text : Reading String :=
  tripleString '"' basicPiece <|> basicString <|> tripleString '\'' literalPiece <|> literalString

end SealedChat.Toml
