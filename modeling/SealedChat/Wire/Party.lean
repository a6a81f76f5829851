import SealedChat.Service.Peer
import SealedChat.Session
import SealedChat.Stack
import SealedChat.Wire.Station

/-!
# Who sits at the end of a wire

A party is a channel, by what its top layer allows: a bare line, an asymmetric or integrity layer
over something, a channel secured by a handshake, a session, or any other stack. An action is
carried out as a dialogue that ends with a reply and what the party has become. Actions that a party
does not allow are refused.
-/

namespace SealedChat

inductive Party where
  /-- The line alone. -/
  | line
  /-- A stack that only sends and receives. -/
  | stack (stack : Stack)
  | asymmetric (keys : SealingKeys) (inner : Stack) (closed : Bool := false)
  | integrity (key : IntegrityKey) (inner : Stack) (closed : Bool := false)
  /-- A channel after a handshake. -/
  | secured (identity : String) (cipher : SessionCipher) (inner : Stack) (closed : Bool := false)
  | session (session : Session)
  /-- The channel is used up. -/
  | gone

inductive Action where
  | send (payload : Bytes)
  | receive
  | receiveText
  | receiveVerified
  | close
  | cancel
  | inspect
  | setOwn (key : PrivateKey)
  | setOpposite (key : PublicKey)
  | initiate (identity : String) (limit : Duration)
  | respond (limit : Duration)
  | respondIdle (limit : Duration)
  | logout
  | deliver (sender peer text : String) (limit : Duration)
  | answer (receiver : String)
  | unwrap
  | unknown

inductive Reply where
  | done
  | payload (b : Bytes)
  | text (s : String)
  | verified (v : Verified)
  | lineState (closed cancelled : Bool)
  | keys (own : PublicKey) (opposite : Option PublicKey)
  | ownKey (key : PublicKey)
  | oppositeKey (key : PublicKey)
  | secured (identity : String) (secrets : Secrets)
  | identity (name : String)
  | report (r : PrivateMessage.Report)
  | incoming (m : PrivateMessage.Incoming)
  | unwrapped (identity : String) (role : Role)
  | failed (e : ChatError)
  | notSupported
  | gone
  /-- The action still waited when it was called off. -/
  | pending

namespace Reply

def ofOutcome {α : Type} (f : α → Reply) : Outcome α → Reply
  | .ok a => f a
  | .error e => failed e

end Reply

namespace Party

/-- The stack of a party that sends and receives as it is, and the party that a stack which has moved
on belongs to. -/
def channel? : Party → Option (Stack × (Stack → Party))
  | line => some ([], fun _ => line)
  | stack s => some (s, stack)
  | asymmetric keys inner closed => some (.layer (.asymmetric keys) closed :: inner, fun
    | .layer (.asymmetric keys) closed :: inner => asymmetric keys inner closed
    | s => stack s)
  | integrity key inner closed => some (.layer (.integrity key) closed :: inner, fun
    | .layer (.integrity key) closed :: inner => integrity key inner closed
    | s => stack s)
  | secured identity cipher inner closed => some (.layer (.symmetric cipher) closed :: inner, fun
    | .layer (.symmetric cipher) closed :: inner => secured identity cipher inner closed
    | s => stack s)
  | session _ | gone => none

/-- The party has let go of its stream. -/
def hasLetGo : Party → Bool
  | gone => true
  | session s => match s.stage with
    | .closed => true
    | _ => false
  | _ => false

/-- How long a plain receive waits. -/
def receiveLimit : Option Duration := some (.ofSeconds 1)

variable [CipherSuite]

/-- Carries out a handshake at an asymmetric layer, which gives way to a new symmetric one. -/
def secure (inner : Stack) (handshake : Channel → Dialogue (Outcome Handshake.Secured)) :
    Dialogue (Reply × Party) := do
  match ← handshake inner with
  | .ok s => return (.secured s.identity s.secrets, secured s.identity s.cipher (inner.moved s.inner))
  | .error e => return (.failed e, gone)

def sendVia (p : Party) (payload : Bytes) : Dialogue (Reply × Party) :=
  match p, p.channel? with
  | session s, _ => do
    let (o, s) ← s.send payload
    return (.ofOutcome (fun _ => .done) o, session s)
  | _, some (s, back) => do
    let (o, s) ← s.send payload
    return (.ofOutcome (fun _ => .done) o, back s)
  | p, none => return (.gone, p)

def receiveVia (p : Party) (read : Bytes → Reply) : Dialogue (Reply × Party) :=
  match p, p.channel? with
  | session s, _ => do
    let (o, s) ← s.receive receiveLimit
    return (.ofOutcome read o, session s)
  | _, some (s, back) => do
    let (o, s) ← s.receive receiveLimit
    return (.ofOutcome read o, back s)
  | p, none => return (.gone, p)

def closeVia (p : Party) : Dialogue (Reply × Party) :=
  match p, p.channel? with
  | session s, _ => do return (.done, session (← s.close))
  | _, some (s, back) => do
    let (o, s) ← s.close
    return (.ofOutcome (fun _ => .done) o, back s)
  | p, none => return (.gone, p)

/-- A session's part of an action. -/
def loginReply (read : String → Reply) (d : Dialogue (Outcome String × Session)) :
    Dialogue (Reply × Party) := do
  let (o, s) ← d
  return (.ofOutcome read o, session s)

/-- Carries out an action that concerns the channel. -/
def act (p : Party) (store : KeyStore) (a : Action) : Dialogue (Reply × Party) :=
  match a, p with
  | _, gone => return (.gone, gone)
  | .send payload, p => p.sendVia payload
  | .receive, p => p.receiveVia .payload
  | .receiveText, p => p.receiveVia fun b => .ofOutcome .text (Channel.textOf b)
  | .receiveVerified, integrity key inner closed => do
    let (o, c) ← Channel.receiveVerified key receiveLimit inner
    return (.ofOutcome .verified o, integrity key (inner.moved c) closed)
  | .close, p => p.closeVia
  | .inspect, asymmetric keys inner closed =>
    return (.keys keys.own.publicKey keys.opposite, asymmetric keys inner closed)
  | .setOwn own, asymmetric keys inner closed =>
    return (.ownKey own.publicKey, asymmetric { keys with own } inner closed)
  | .setOpposite key, asymmetric keys inner closed =>
    return (.oppositeKey key, asymmetric { keys with opposite := some key } inner closed)
  | .initiate identity limit, asymmetric keys inner _ =>
    secure inner fun c => Handshake.initiate keys c identity limit
  | .respond limit, asymmetric keys inner _ =>
    secure inner fun c => Handshake.respond keys c store (some limit) limit
  | .respondIdle limit, asymmetric keys inner _ =>
    secure inner fun c => Handshake.respond keys c store none limit
  | .initiate identity limit, session s => loginReply (fun _ => .done) (s.initiate identity limit)
  | .respond limit, session s => loginReply .identity (s.respond store (some limit) limit)
  | .respondIdle limit, session s => loginReply .identity (s.respond store none limit)
  | .logout, session s =>
    let (o, s) := s.logout
    return (.ofOutcome .identity o, session s)
  | .deliver sender peer text limit, integrity key inner closed => do
    let (o, c) ← Peer.deliver key inner sender peer text limit
    return (.ofOutcome .report o, integrity key (inner.moved c) closed)
  | .answer receiver, integrity key inner closed => do
    let (o, c) ← Peer.answer key inner receiver none
    return (.ofOutcome .incoming o, integrity key (inner.moved c) closed)
  | .unwrap, asymmetric _ inner _ => return (.done, stack inner)
  | .unwrap, integrity _ inner _ => return (.done, stack inner)
  | .unwrap, secured identity cipher inner closed =>
    return (.unwrapped identity cipher.role, stack (.layer (.symmetric cipher) closed :: inner))
  | _, p => return (.notSupported, p)

end Party

/-! ## Ends -/

/-- One end of a wire: a party, what it runs on, and the keys it knows. -/
structure WireEnd where
  party : Party
  station : Station
  ring : KeyRing
  /-- Between the party and the line there is a session, and nobody has logged in to it. -/
  guarded : Bool

namespace WireEnd

/-- The end after an action, which may have let go of its stream. A session that is closed lets go
of it, also below other layers. -/
def settle (e : WireEnd) (party : Party) (station : Station) : WireEnd :=
  let hasLetGo := party.hasLetGo || e.guarded && station.transport.closed
  { e with
    party
    station := if hasLetGo then station.map fun t => t.close.endInput else station }

/-- How long an action may take before it is called off: one hour. -/
def patience : Nat := (Duration.ofSeconds 3600).nanoseconds

variable [CipherSuite]

/-- An action of the party, through what lies between it and the line. -/
def dialogue (e : WireEnd) (a : Action) : Dialogue (Reply × Party) :=
  let d := e.party.act e.ring.toStore a
  if e.guarded then Session.refusing (!e.station.transport.closed) d else d

/-- Carries out an action while nothing more arrives. -/
def perform (e : WireEnd) (a : Action) : Reply × WireEnd :=
  match a, e.party with
  | .cancel, _ => (.done, { e with station := e.station.map Transport.cancel })
  | _, .gone => (.gone, e)
  | .inspect, .line =>
    (.lineState e.station.transport.closed e.station.transport.cancelled, e)
  | a, _ =>
    let ((reply, party), inTime, station) := (e.dialogue a).alone patience e.station
    (if inTime then reply else .pending, e.settle party station)

end WireEnd

end SealedChat
