import SealedChat.Error
import SealedChat.Text.Blank
import SealedChat.Text.Substitution
import SealedChat.Text.Words

/-!
# The dispatcher

Requests are lines whose first word is a command. Each command has at most one handler, the one
registered last. A handler sees the state of the service (`σ`), who asks, and the whole line.
-/

namespace SealedChat

abbrev Handler (σ : Type) := (state : σ) → (identity line : String) → Outcome String

/-- The handler that replies with a template, in which `{id}` stands for who asks and `{line}` for
the request. -/
def Handler.ofTemplate {σ : Type} (template : String) : Handler σ := fun _ identity line =>
  .ok (Substitution.fill [("\x7bid\x7d", identity), ("\x7bline\x7d", line)] template)

/-- Handlers by command, the newest first. -/
structure Dispatcher (σ : Type) where
  handlers : List (String × Handler σ)

namespace Dispatcher

variable {σ : Type}

def empty : Dispatcher σ := ⟨[]⟩

def register (d : Dispatcher σ) (command : String) (handler : Handler σ) : Dispatcher σ :=
  ⟨(command, handler) :: d.handlers⟩

def handler? (d : Dispatcher σ) (command : String) : Option (Handler σ) := d.handlers.lookup command

def contains (d : Dispatcher σ) (command : String) : Bool := (d.handler? command).isSome

/-- The reply to a request that has no handler. -/
def unknownRequest : String := "Error: Unknown request."

/-- The first word of a line, blanks in front left out. -/
def commandOf (line : String) : String :=
  String.ofList (Words.first ' ' (Blank.trimStart line.toList))

def dispatch (d : Dispatcher σ) (state : σ) (identity line : String) : Outcome String :=
  match d.handler? (commandOf line) with
  | some handler => handler state identity line
  | none => .ok unknownRequest

end Dispatcher

end SealedChat
