import SealedChat.Config.Files
import SealedChat.Service.Connection
import SealedChat.Service.Network

/-!
# Clients

A client keeps one line to a server, whose key it knows. It logs in, sends requests, each of which
is answered by one reply, and logs out; then it may log in again, on the same line.
-/

namespace SealedChat

structure Client where
  session : Session
  handshakeTimeout : Duration
  responseTimeout : Duration

namespace Client

/-- A client on a new line. -/
def new (s : ClientSettings) (own : PrivateKey) (server : PublicKey) : Client :=
  ⟨.new [.base64] own (some server), s.handshakeTimeout, s.responseTimeout⟩

variable [CipherSuite]

def login (c : Client) (identity : String) : Dialogue (Outcome Unit × Client) := do
  let (o, session) ← c.session.initiate identity c.handshakeTimeout
  return (o.map fun _ => (), { c with session })

/-- Sends one line and waits for the reply. -/
def request (c : Client) (line : String) : Dialogue (Outcome String × Client) := do
  match ← c.session.send (Utf8.encode line) with
  | (.error e, session) => return (.error e, { c with session })
  | (.ok (), session) =>
    let (o, session) ← session.receive (some c.responseTimeout)
    return (o.bind Channel.textOf, { c with session })

/-- Asks for a logout. Any reply to that counts. -/
def logout (c : Client) : Dialogue (Outcome String × Client) := do
  match ← c.request Request.logout with
  | (.error e, c) => return (.error e, c)
  | (.ok reply, c) =>
    let (o, session) := c.session.logout
    return (o.map fun _ => reply, { c with session })

def close (c : Client) : Dialogue Client := do
  return { c with session := ← c.session.close }

/-- Opens a line to the server and logs in. A client that cannot log in is given up. -/
def connect (net : Network) (s : ClientSettings) (own : PrivateKey) (server : PublicKey) :
    Dialogue (Outcome Client) := do
  match net.reach s.serverAddress with
  | .error e => return .error e
  | .ok () =>
    let (o, c) ← (new s own server).login s.identity
    return o.map fun _ => c

/-- A client whose keys are in files. -/
def connectWith (net : Network) (s : Settings) (t : FileTree) : Dialogue (Outcome Client) :=
  match (do return (← s.keys.loadPrivateKey t, ← s.keys.loadServerKey t) : Outcome _) with
  | .error e => return .error e
  | .ok (own, server) => connect net s.client own server

end Client

end SealedChat
