import SealedChat.Handshake.Login

/-!
# Sessions

One end of a connection over its whole life: it logs in, talks, logs out, and may log in again on
the same line. Before a login the channel is sealed to keys; afterwards it is encrypted under the
session's secrets. A failed login closes the session for good. Layers may lie over a session too;
then nobody can log in to it, and it lets nothing through.
-/

namespace SealedChat

namespace Session

inductive Stage where
  | unauthenticated (inner : Channel)
  | authenticated (cipher : SessionCipher) (inner : Channel) (identity : String)
  | closed

def Stage.name : Stage → String
  | unauthenticated _ => "Unauthenticated"
  | authenticated _ _ _ => "Authenticated"
  | closed => "Closed"

end Session

structure Session where
  own : PrivateKey
  /-- The only key that the other side may have. -/
  pinned : Option PublicKey
  stage : Session.Stage

namespace Session

def new (inner : Channel) (own : PrivateKey) (pinned : Option PublicKey) : Session :=
  ⟨own, pinned, .unauthenticated inner⟩

/-- The keys of the asymmetric layer that a login starts from. -/
def keys (s : Session) : SealingKeys := ⟨s.own, s.pinned⟩

/-- Who is logged in. -/
def identity (s : Session) : Option String :=
  match s.stage with
  | .authenticated _ _ identity => some identity
  | _ => none

def enter (s : Session) (secured : Handshake.Secured) : Session :=
  { s with stage := .authenticated secured.cipher secured.inner secured.identity }

def shut (s : Session) : Session := { s with stage := .closed }

/-- Back to the stage before a login, on the same line. -/
def logout (s : Session) : Outcome String × Session :=
  match s.stage with
  | .authenticated _ inner identity => (.ok identity, { s with stage := .unauthenticated inner })
  | _ => (.error .notLoggedIn, s)

variable [CipherSuite]

/-- Runs a login, if one may start now. -/
def login (s : Session) (handshake : Channel → Dialogue (Outcome Handshake.Secured)) :
    Dialogue (Outcome String × Session) :=
  match s.stage with
  | .unauthenticated inner => do
    match ← handshake inner with
    | .ok secured => return (.ok secured.identity, s.enter secured)
    | .error e => return (.error e, s.shut)
  | _ => return (.error .wrongStage, s)

/-- Logs in as `identity`. -/
def initiate (s : Session) (identity : String) (limit : Duration) :
    Dialogue (Outcome String × Session) :=
  s.login fun inner => Handshake.initiate s.keys inner identity limit

/-- Lets someone log in; the first message may take as long as `first` allows. -/
def respond (s : Session) (store : KeyStore) (first : Option Duration) (limit : Duration) :
    Dialogue (Outcome String × Session) :=
  s.login fun inner => Handshake.respond s.keys inner store first limit

/-- What a session answers to traffic while nobody is logged in. -/
def refusal (s : Session) : ChatError :=
  match s.stage with
  | .closed => .connectionClosed
  | _ => .notLoggedIn

/-- The session after its channel has moved on. -/
def moved (s : Session) (identity : String) : Channel → Session
  | .symmetric cipher :: inner => { s with stage := .authenticated cipher inner identity }
  | _ => s

def send (s : Session) (payload : Bytes) : Dialogue (Outcome Unit × Session) :=
  match s.stage with
  | .authenticated cipher inner identity => do
    let (o, channel) ← Channel.send (.symmetric cipher :: inner) payload
    return (o, s.moved identity channel)
  | _ => return (.error s.refusal, s)

def receive (s : Session) (limit : Option Duration) : Dialogue (Outcome Bytes × Session) :=
  match s.stage with
  | .authenticated cipher inner identity => do
    let (o, channel) ← Channel.receive limit (.symmetric cipher :: inner)
    return (o, s.moved identity channel)
  | _ => return (.error s.refusal, s)

/-- A dialogue of layers over a session. The session refuses all traffic, and passes on only that the
line is closed; `isOpen` tells that it is not closed itself. -/
def refusing {α : Type} : (isOpen : Bool) → Dialogue α → Dialogue α
  | _, .done a => .done a
  | isOpen, .send _ next =>
    refusing isOpen (next (.error (if isOpen then .notLoggedIn else .connectionClosed)))
  | isOpen, .receive _ next =>
    refusing isOpen (next (.error (if isOpen then .notLoggedIn else .connectionClosed)))
  | _, .close next => .close (refusing false next)
  | isOpen, .fill n next => .fill n fun o => refusing isOpen (next o)

def close (s : Session) : Dialogue Session := do
  match s.stage with
  | .closed => return s
  | _ =>
    Dialogue.closeLine
    return s.shut

end Session

end SealedChat
