import SealedChat.Config.Files
import SealedChat.Service.Metrics
import SealedChat.Service.Network
import SealedChat.Service.Peer

/-!
# Private listeners

A listener takes private messages for one user. Every sender has a line of its own, on which one
message comes in and one reply goes out; the messages wait in an inbox until they are read. Like a
connection of a server, a delivery goes on in steps, each a dialogue with a change at its end.
-/

namespace SealedChat

/-- Messages that wait to be read, the oldest first. -/
structure Inbox where
  waiting : List PrivateMessage.Incoming
  isOpen : Bool

namespace Inbox

/-- How many messages may wait. -/
def capacity : Nat := 64

def empty : Inbox := ⟨[], true⟩

/-- Room for one more message. -/
def hasRoom (i : Inbox) : Bool := i.waiting.length < capacity

def push (i : Inbox) (m : PrivateMessage.Incoming) : Inbox := { i with waiting := i.waiting ++ [m] }

/-- Takes out all messages. -/
def drain (i : Inbox) : List PrivateMessage.Incoming × Inbox := (i.waiting, { i with waiting := [] })

/-- An inbox that nobody reads. -/
def shut : Inbox := ⟨[], false⟩

end Inbox

structure Listener where
  name : String
  key : IntegrityKey
  /-- How long a message and its reply may take. -/
  timeout : Duration := .ofSeconds 5
  address : Option String := none
  metrics : Metrics := {}
  inbox : Inbox := .empty

namespace Delivery

/-- What a delivery does next. -/
inductive Phase where
  | answering
  /-- Waits for room in the inbox. -/
  | delivering (m : PrivateMessage.Incoming)
  | closing
  | ended
deriving DecidableEq, Repr

end Delivery

namespace Listener

/-- A listener whose key is in a file. -/
def ofSettings (s : Settings) (t : FileTree) : Outcome Listener := do
  let key ← s.keys.loadIntegrityKey t
  return {
    name := s.client.identity
    key
    timeout := s.client.responseTimeout
    address := s.client.privateAddress }

def run (_ : Listener) (net : Network) (address : String) : Outcome Unit := net.offer address

/-- Offers the address of the settings. -/
def listen (l : Listener) (net : Network) : Outcome Unit :=
  match l.address with
  | some address => l.run net address
  | none => .error (.config "client.private_address is not configured")

def count (l : Listener) (e : Metrics.Event) : Listener := { l with metrics := l.metrics.count e }

/-- A sender has opened a line. -/
def accept (l : Listener) : Listener × Delivery.Phase := (l.count .connectionEstablished, .answering)

/-- The change at the end of a step. -/
abbrev Change := Listener → Listener × Delivery.Phase

/-- An exchange has ended. A message is kept, whether it is genuine or not. -/
def answered : Outcome PrivateMessage.Incoming → Change
  | .ok m, l =>
    let l := l.count (.messageReceived (.ofNat (Utf8.size m.text)))
    (if m.authentic then l else l.count .integrityMismatch, .delivering m)
  | .error e, l => (if e.isDisconnect then l else l.count .connectionError, .closing)

/-- Puts a message into the inbox, once there is room. Nobody reads from an inbox that is closed. -/
def deliver (m : PrivateMessage.Incoming) : Change := fun l =>
  if !l.inbox.isOpen then (l, .closing)
  else if l.inbox.hasRoom then ({ l with inbox := l.inbox.push m }, .closing)
  else (l, .delivering m)

variable [CipherSuite]

/-- The next step of a delivery. -/
def step (l : Listener) : Delivery.Phase → Dialogue Change
  | .answering => do
    let (o, _) ← Peer.answer l.key [] l.name (some l.timeout)
    return answered o
  | .delivering m => return deliver m
  | .closing => do
    Dialogue.closeLine
    return fun l => (l.count .connectionClosed, .ended)
  | .ended => return fun l => (l, .ended)

end Listener

/-- Opens a line to a peer, delivers one message and closes the line. -/
def sendPrivate [CipherSuite] (net : Network) (address : String) (key : IntegrityKey)
    (sender peer text : String) (limit : Duration) : Dialogue (Outcome PrivateMessage.Report) := do
  match net.reach address with
  | .error e => return .error e
  | .ok () =>
    let (o, _) ← Peer.deliver key [] sender peer text limit
    Dialogue.closeLine
    return o

end SealedChat
