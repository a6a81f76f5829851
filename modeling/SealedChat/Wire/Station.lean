import SealedChat.Dialogue
import SealedChat.Transport

/-!
# Running dialogues

A station is what a dialogue runs on: a transport and a source of random bytes. Dialogues run until
they have to wait. Time is virtual: it passes only while everybody waits.
-/

namespace SealedChat

structure Station where
  transport : Transport
  random : RandomStream

namespace Station

def map (f : Transport → Transport) (s : Station) : Station := { s with transport := f s.transport }

end Station

namespace Dialogue

variable {α : Type}

/-- Runs a dialogue until it waits for a line that is not there, or has ended. A wait that may not
take any time is over at once. -/
def advance : Dialogue α → Station → Dialogue α × Station
  | done a, s => (done a, s)
  | send line next, s =>
    let (o, transport) := s.transport.send line
    (next o).advance { s with transport }
  | receive limit next, s =>
    match s.transport.poll with
    | (some o, transport) => (next o).advance { s with transport }
    | (none, transport) =>
      if limit = some ⟨0⟩ then (next (.error .timeout)).advance { s with transport }
      else (receive limit next, { s with transport })
  | close next, s => next.advance (s.map Transport.close)
  | fill n next, s =>
    let (o, random) := s.random.fill n
    (next o).advance { s with random }

/-- The result of a dialogue whose every wait is called off. -/
def callOff : Dialogue α → Station → α × Station
  | done a, s => (a, s)
  | send line next, s =>
    let (o, transport) := s.transport.send line
    (next o).callOff { s with transport }
  | receive _ next, s =>
    match s.transport.poll with
    | (some o, transport) => (next o).callOff { s with transport }
    | (none, transport) => (next (.error .timeout)).callOff { s with transport }
  | close next, s => next.callOff (s.map Transport.close)
  | fill n next, s =>
    let (o, random) := s.random.fill n
    (next o).callOff { s with random }

/-- The result of a dialogue to which nothing more arrives, and whether it came within `patience`
nanoseconds. -/
def alone (patience : Nat) : Dialogue α → Station → α × Bool × Station
  | done a, s => (a, true, s)
  | send line next, s =>
    let (o, transport) := s.transport.send line
    (next o).alone patience { s with transport }
  | receive limit next, s =>
    match s.transport.poll with
    | (some o, transport) => (next o).alone patience { s with transport }
    | (none, transport) =>
      if limit.any (·.nanoseconds ≤ patience) then
        (next (.error .timeout)).alone (patience - (limit.getD ⟨0⟩).nanoseconds)
          { s with transport }
      else
        let (a, s) := (next (.error .timeout)).callOff { s with transport }
        (a, false, s)
  | close next, s => next.alone patience (s.map Transport.close)
  | fill n next, s =>
    let (o, random) := s.random.fill n
    (next o).alone patience { s with random }

end Dialogue

end SealedChat
