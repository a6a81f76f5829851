import SealedChat.Channel

/-!
# Stacks of wrappers

A channel as its owner holds it. Each layer is a wrapper around what is below it: it can be put on and
taken off again, and it remembers whether it has been closed. Only closing asks for that. A closed
wrapper does nothing when it is closed again, any other closes what it is around; a new wrapper knows
nothing of what an earlier one remembered. The line at the bottom remembers by itself that it is
closed.
-/

namespace SealedChat

inductive Wrapper where
  /-- Passes everything on. -/
  | box
  | layer (layer : Layer) (closed : Bool)

namespace Wrapper

def new (l : Layer) : Wrapper := .layer l false

def base64 : Wrapper := .new .base64

def symmetric (cipher : SessionCipher) : Wrapper := .new (.symmetric cipher)

end Wrapper

/-- The wrappers over a line, the top one first. -/
abbrev Stack := List Wrapper

namespace Stack

/-- What a stack does to payloads. -/
def layers : Stack → Channel
  | [] => []
  | .box :: s => layers s
  | .layer l _ :: s => l :: layers s

instance : Coe Stack Channel := ⟨layers⟩

/-- The stack after its layers have moved on. -/
def moved : Stack → Channel → Stack
  | .box :: s, c => .box :: moved s c
  | .layer _ closed :: s, l :: c => .layer l closed :: moved s c
  | s, _ => s

/-- Closes the top wrapper, and what it is around unless it was closed already. -/
def close : Stack → Dialogue (Outcome Unit × Stack)
  | [] => do
    Dialogue.closeLine
    return (.ok (), [])
  | .box :: s => do
    let (o, s) ← close s
    return (o, .box :: s)
  | .layer l closed :: s =>
    if closed then return (.ok (), .layer l true :: s)
    else do
      let (o, s) ← close s
      return (o, .layer l true :: s)

variable [CipherSuite]

def send (s : Stack) (payload : Bytes) : Dialogue (Outcome Unit × Stack) := do
  let (o, c) ← s.layers.send payload
  return (o, s.moved c)

def receive (limit : Option Duration) (s : Stack) : Dialogue (Outcome Bytes × Stack) := do
  let (o, c) ← s.layers.receive limit
  return (o, s.moved c)

end Stack

end SealedChat
