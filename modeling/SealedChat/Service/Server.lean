import SealedChat.Config.Files
import SealedChat.Service.Connection
import SealedChat.Service.Network

/-!
# Servers

A server admits connections up to a limit and lets each of them go on by itself. When it is told to
stop it admits no more, and every wait of its connections is called off.
-/

namespace SealedChat

structure Server where
  settings : ServerSettings
  own : PrivateKey
  store : KeyStore
  hub : Hub
  nextId : ConnectionId
  /-- The connections that are open. -/
  connections : List Connection
  stopping : Bool

namespace Server

def new (settings : ServerSettings) (own : PrivateKey) (store : KeyStore)
    (dispatcher : Dispatcher SessionTable) : Server :=
  ⟨settings, own, store, .new dispatcher, 1, [], false⟩

/-- A server whose keys are in files. -/
def ofSettings (s : Settings) (t : FileTree) (dispatcher : Dispatcher SessionTable) :
    Outcome Server := do
  let own ← s.keys.loadPrivateKey t
  let directory ← s.keys.openDirectory t
  return new s.server own directory.toStore dispatcher

/-- Offers the address of the settings. -/
def start (s : Server) (net : Network) : Outcome Unit := net.offer s.settings.address

/-! ## What happens to a server -/

/-- A line has been opened to the server. Beyond the limit it is dropped. -/
def accept (s : Server) : Server :=
  if s.stopping || s.settings.maxConnections ≤ s.hub.active then s
  else
    { s with
      hub := s.hub.enter
      nextId := s.nextId + 1
      connections := .new s.nextId s.own :: s.connections }

/-- A line could not be opened. -/
def missed (s : Server) : Server := { s with hub := s.hub.count .connectionError }

/-- The server after a connection has made a step; one that is over is no longer there. -/
def settle (s : Server) (id : ConnectionId) (change : Connection.Change) : Server :=
  let (hub, c) := change s.hub
  let others := s.connections.filter (·.id ≠ id)
  { s with hub, connections := if c.phase = .ended then others else c :: others }

def register (s : Server) (command : String) (handler : Handler SessionTable) : Server :=
  { s with hub := { s.hub with dispatcher := s.hub.dispatcher.register command handler } }

def shutdown (s : Server) : Server := { s with stopping := true }

section

variable [CipherSuite]

/-- What a connection does next. -/
def next (s : Server) (c : Connection) : Dialogue Connection.Change :=
  c.step s.store s.settings.handshakeTimeout

/-- One thing that happens to a server, in whatever order: the lines decide what the dialogues of
the connections come to. -/
inductive Moves : Server → Server → Prop where
  | accept (s : Server) : Moves s s.accept
  | missed (s : Server) : Moves s s.missed
  | step (s : Server) {c : Connection} {es : List Dialogue.Event} {change : Connection.Change} :
      c ∈ s.connections → Dialogue.Runs (s.next c) es change → Moves s (s.settle c.id change)
  | register (s : Server) (command : String) (handler : Handler SessionTable) :
      Moves s (s.register command handler)
  | shutdown (s : Server) : Moves s s.shutdown

/-- What can have happened to a server since it was new. -/
inductive Reachable : Server → Prop where
  | new (settings : ServerSettings) (own : PrivateKey) (store : KeyStore)
      (dispatcher : Dispatcher SessionTable) : Reachable (new settings own store dispatcher)
  | move {s t : Server} : Reachable s → Moves s t → Reachable t

end

end Server

end SealedChat
