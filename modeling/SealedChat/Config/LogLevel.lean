import SealedChat.Text.Digits

/-!
# Log levels
-/

namespace SealedChat

/-- How much goes to the log, the least first. -/
inductive LogLevel where
  | error
  | warn
  | info
  | debug
  | trace
deriving DecidableEq, Repr

namespace LogLevel

def name : LogLevel → String
  | error => "error"
  | warn => "warn"
  | info => "info"
  | debug => "debug"
  | trace => "trace"

/-- The levels, counted from one. -/
def all : List LogLevel := [error, warn, info, debug, trace]

/-- A level by its number, or by its name in letters of either case. -/
def ofText? (s : String) : Option LogLevel :=
  match Digits.read? (Nat.pow 2 64) s with
  | some (n + 1) => all[n]?
  | some 0 => none
  | none => all.find? fun l => l.name.toList = s.toList.map Char.toLower

theorem ofText?_name (l : LogLevel) : ofText? l.name = some l := by
  cases l <;> decide

end LogLevel

end SealedChat
