import SealedChat.Config.LogLevel
import SealedChat.Duration
import SealedChat.Files.Path

/-!
# Settings

What servers and clients can be told about themselves, with defaults that suit a first try on one
machine.
-/

namespace SealedChat

/-- The longest line, in bytes, unless something else is set. -/
def defaultLineLength : UInt64 := 65536

structure ServerSettings where
  address : String := "127.0.0.1:13370"
  maxConnections : UInt64 := 1000
  /-- How long every wait of a handshake may take. -/
  handshakeTimeout : Duration := .ofSeconds 10
  /-- How long connections may take to end when the server stops. -/
  shutdownTimeout : Duration := .ofSeconds 10
  maxLineLength : UInt64 := defaultLineLength
deriving DecidableEq, Repr

structure ClientSettings where
  serverAddress : String := "127.0.0.1:13370"
  /-- The principal to log in as. -/
  identity : String := "alice"
  /-- Where private messages are accepted, if anywhere. -/
  privateAddress : Option String := none
  connectionTimeout : Duration := .ofSeconds 5
  handshakeTimeout : Duration := .ofSeconds 10
  /-- How long a reply to a request may take. -/
  responseTimeout : Duration := .ofSeconds 30
  maxLineLength : UInt64 := defaultLineLength
deriving DecidableEq, Repr

/-- Where keys are kept. -/
structure KeySettings where
  privateKey : Option Path := none
  /-- The key of the server, for clients. -/
  serverPublicKey : Option Path := none
  /-- The keys of all principals, for servers. -/
  publicKeyDir : Option Path := none
  /-- The shared key of private messages. -/
  hmacKey : Option Path := none
deriving DecidableEq, Repr

structure LogSettings where
  appName : String := "secure-chat"
  level : LogLevel := .info
  toConsole : Bool := true
  toFile : Bool := false
  filePath : Option String := none
  json : Bool := false
deriving DecidableEq, Repr

structure Settings where
  server : ServerSettings := {}
  client : ClientSettings := {}
  keys : KeySettings := {}
  logging : LogSettings := {}
deriving DecidableEq, Repr

end SealedChat
