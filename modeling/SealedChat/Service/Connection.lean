import SealedChat.Config.Settings
import SealedChat.Service.Dispatcher
import SealedChat.Service.Metrics
import SealedChat.Service.SessionTable
import SealedChat.Session

/-!
# One connection of a server

A connection alternates between logging somebody in and serving requests, until its line fails or
somebody else is logged in under the same name. It shares a hub with the other connections: who is
online, the handlers and the counters. A connection goes on in steps. Each step is a dialogue on the
line, at whose end the hub and the connection change at once (`Connection.step`), so the connections
of a server can be interleaved step by step in any order. Whatever looks at the table of who is
online, or changes it, is a step of its own.
-/

namespace SealedChat

/-- What the connections of a server share. -/
structure Hub where
  dispatcher : Dispatcher SessionTable
  table : SessionTable
  metrics : Metrics
  /-- How many connections are open. -/
  active : UInt64

namespace Hub

def new (dispatcher : Dispatcher SessionTable) : Hub := ⟨dispatcher, .empty, {}, 0⟩

def count (h : Hub) (e : Metrics.Event) : Hub := { h with metrics := h.metrics.count e }

/-- Releases an identity, if the connection owns it. -/
def release (h : Hub) (identity : String) (connection : ConnectionId) : Hub :=
  match h.table.unbind identity connection with
  | (true, table) => { h with table }.count .sessionUnbound
  | (false, table) => { h with table }

/-- A connection opens and begins its first handshake. -/
def enter (h : Hub) : Hub :=
  { h with active := h.active + 1 }.count .connectionEstablished |>.count .handshakeAttempt

/-- Counts why a connection ends. That the other side has gone is no error. -/
def blame (h : Hub) (cause : ChatError) : Hub :=
  if cause.isDisconnect then h
  else if cause.kind = .decoding then h.count .decodingError |>.count .connectionError
  else h.count .connectionError

/-- A connection ends. -/
def leave (h : Hub) (cause : ChatError) : Hub :=
  let h := h.blame cause
  { h with active := h.active - 1 }.count .connectionClosed

end Hub

/-! ## Requests -/

namespace Request

/-- The request that ends a session. -/
def logout : String := "!logout"

/-- The reply to it. -/
def loggedOut : String := "Successfully logged out."

def isLogout (line : String) : Bool := Blank.trim line.toList = logout.toList

/-- The reply of the dispatcher to a line, which is one in any case. -/
def replyTo (h : Hub) (identity line : String) : String :=
  match h.dispatcher.dispatch h.table identity line with
  | .ok reply => reply
  | .error e => "Error: " ++ e.message

end Request

/-! ## Connections -/

namespace Connection

/-- What a connection does next. -/
inductive Phase where
  /-- Logs somebody in, for the first time or again. -/
  | handshake (again : Bool)
  /-- Takes hold of the identity that has logged in. -/
  | binding (identity : String)
  /-- Turns somebody away who is logged in already. -/
  | refusing (cause : ChatError)
  /-- Waits for a request. -/
  | serving (identity : String)
  /-- Asks the dispatcher for the reply to a request. -/
  | dispatching (identity line : String)
  | replying (identity reply : String) (logout : Bool)
  /-- Gives back the identity that logs out. -/
  | unbinding (identity : String)
  /-- Ends the session, to start another on the same line. -/
  | loggingOut
  /-- Gives back what it owns. -/
  | releasing (cause : ChatError)
  | closing (cause : ChatError)
  | ended
deriving DecidableEq, Repr

end Connection

structure Connection where
  id : ConnectionId
  session : Session
  phase : Connection.Phase

namespace Connection

/-- A connection on a new line. -/
def new (id : ConnectionId) (own : PrivateKey) : Connection :=
  ⟨id, .new [.base64] own none, .handshake false⟩

/-- The change at the end of a step. -/
abbrev Change := Hub → Hub × Connection

/-- A handshake has ended. -/
def loggedIn (c : Connection) : Outcome String → Change
  | .error e, h =>
    (if e.isDisconnect then h else h.count .handshakeFailed, { c with phase := .releasing e })
  | .ok identity, h => (h.count .handshakeSuccess, { c with phase := .binding identity })

/-- Who has logged in is bound to the connection, unless somebody is online under that name. -/
def bind (c : Connection) (identity : String) : Change := fun h =>
  match h.table.bind identity c.id with
  | (.ok (), table) => ({ h with table }.count .sessionBound, { c with phase := .serving identity })
  | (.error e, table) => ({ h with table }, { c with phase := .refusing e })

/-- Somebody has been told that it is logged in already. -/
def refused (c : Connection) (cause : ChatError) : Outcome Unit → Change
  | .error e, h => (h, { c with phase := .releasing e })
  | .ok (), h => (h, { c with phase := .releasing cause })

/-- A request has come in. -/
def requested (c : Connection) (identity : String) : Outcome String → Change
  | .error e, h => (h, { c with phase := .releasing e })
  | .ok line, h =>
    (h.count (.messageReceived (.ofNat (Utf8.size line))),
      { c with phase :=
        if Request.isLogout line then .replying identity Request.loggedOut true
        else .dispatching identity line })

/-- The dispatcher is asked. It sees who is online at that moment. -/
def dispatch (c : Connection) (identity line : String) : Change := fun h =>
  (h, { c with phase := .replying identity (Request.replyTo h identity line) false })

/-- A reply has been sent. -/
def replied (c : Connection) (identity reply : String) (logout : Bool) : Outcome Unit → Change
  | .error e, h => (h, { c with phase := .releasing e })
  | .ok (), h =>
    (h.count (.messageSent (.ofNat (Utf8.size reply))),
      { c with phase := if logout then .unbinding identity else .serving identity })

def unbind (c : Connection) (identity : String) : Change := fun h =>
  (h.release identity c.id, { c with phase := .loggingOut })

/-- After a logout the connection logs somebody in again. -/
def logout (c : Connection) : Change := fun h =>
  match c.session.logout with
  | (.ok _, session) => (h.count .handshakeAttempt, { c with session, phase := .handshake true })
  | (.error e, session) => (h, { c with session, phase := .releasing e })

def release (c : Connection) (cause : ChatError) : Change := fun h =>
  (c.session.identity.elim h fun identity => h.release identity c.id,
    { c with phase := .closing cause })

variable [CipherSuite]

/-- The next step of a connection. `limit` bounds the waits of a handshake, apart from the first
wait of one that follows a logout. -/
def step (store : KeyStore) (limit : Duration) (c : Connection) : Dialogue Change :=
  match c.phase with
  | .handshake again => do
    let (o, session) ← c.session.respond store (if again then none else some limit) limit
    return loggedIn { c with session } o
  | .binding identity => return c.bind identity
  | .refusing cause => do
    let (o, session) ← c.session.send (Utf8.encode ChatError.alreadyLoggedInText)
    return refused { c with session } cause o
  | .serving identity => do
    let (o, session) ← c.session.receive none
    return requested { c with session } identity (o.bind Channel.textOf)
  | .dispatching identity line => return c.dispatch identity line
  | .replying identity reply logout => do
    let (o, session) ← c.session.send (Utf8.encode reply)
    return replied { c with session } identity reply logout o
  | .unbinding identity => return c.unbind identity
  | .loggingOut => return c.logout
  | .releasing cause => return c.release cause
  | .closing cause => do
    let session ← c.session.close
    return fun h => (h.leave cause, { c with session, phase := .ended })
  | .ended => return fun h => (h, c)

end Connection

end SealedChat
