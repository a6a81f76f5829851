import SealedChat.Text.Combining
import SealedChat.Text.Unprintable

/-!
# Escaped text

A text as it is shown between quotes in a message: quotes, the backslash and unprintable characters
are spelled out. A combining character is left as it is, except in front, where it would join the
quote.
-/

namespace SealedChat.Escaped

/-- The lower-case hexadecimal digits of a number, without leading zeros. -/
def hexDigits (n : Nat) : List Char := Nat.toDigits 16 n

def codePoint (c : Char) : List Char := ['\\', 'u', '\x7b'] ++ hexDigits c.toNat ++ ['\x7d']

/-- The spelling of a character that is not in front. -/
def char (c : Char) : List Char :=
  if c = '\x00' then ['\\', '0']
  else if c = '\t' then ['\\', 't']
  else if c = '\r' then ['\\', 'r']
  else if c = '\n' then ['\\', 'n']
  else if c = '\\' ∨ c = '"' ∨ c = '\'' then ['\\', c]
  else if isUnprintable c then codePoint c
  else [c]

def ofChars : List Char → List Char
  | [] => []
  | c :: r => (if isCombining c then codePoint c else char c) ++ r.flatMap char

def ofText (s : String) : String := String.ofList (ofChars s.toList)

end SealedChat.Escaped
