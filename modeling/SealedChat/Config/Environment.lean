import SealedChat.Config.Settings
import SealedChat.Error

/-!
# Settings from the environment

Variables whose names start with `SECURE_CHAT_` change the defaults. A number that is none is left
out of account, and so is everything that is not set.
-/

namespace SealedChat

/-- The values of the variables, by their names behind the common start. -/
abbrev Environment := String → Option String

namespace Settings

def word64? (s : String) : Option Nat := Digits.read? (Nat.pow 2 64) s

def invalidLevel (s : String) : String := "Invalid log level: " ++ s

def withHandshakeTimeout (s : Settings) (d : Duration) : Settings :=
  { s with
    server := { s.server with handshakeTimeout := d }
    client := { s.client with handshakeTimeout := d } }

/-- The settings that need no check. -/
def ofVariables (env : Environment) : Settings :=
  let s : Settings := {}
  let s := (env "SERVER_ADDRESS").elim s fun a =>
    { s with
      server := { s.server with address := a }
      client := { s.client with serverAddress := a } }
  let s := (env "IDENTITY").elim s fun i => { s with client := { s.client with identity := i } }
  let s := ((env "HANDSHAKE_TIMEOUT_MS").bind word64?).elim s fun n =>
    s.withHandshakeTimeout (.ofMillis n)
  let s := ((env "MAX_CONNECTIONS").bind word64?).elim s fun n =>
    { s with server := { s.server with maxConnections := .ofNat n } }
  { s with
    keys := { s.keys with
      publicKeyDir := (env "KEY_DIR").map Path.mk
      privateKey := (env "PRIVATE_KEY").map Path.mk
      hmacKey := (env "HMAC_KEY").map Path.mk } }

def ofEnvironment (env : Environment) : Outcome Settings :=
  let s := ofVariables env
  match env "LOG_LEVEL" with
  | none => .ok s
  | some text =>
    match LogLevel.ofText? text with
    | some level => .ok { s with logging := { s.logging with level } }
    | none => .error (.config (invalidLevel text))

end Settings

end SealedChat
