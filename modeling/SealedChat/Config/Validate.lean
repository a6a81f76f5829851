import SealedChat.Config.Settings
import SealedChat.Config.SocketAddress
import SealedChat.Files.Tree
import SealedChat.Principal

/-!
# Checking settings

What is wrong with settings, as a list of texts: addresses that are none, times and sizes out of
bounds, and files that are not there.
-/

namespace SealedChat

/-- A finding, on condition. -/
def finding (condition : Bool) (text : String) : List String := if condition then [text] else []

/-- The first finding only. -/
def firstFinding (findings : List (Bool × String)) : List String :=
  ((findings.find? Prod.fst).map Prod.snd).toList

def checkTimeout (name : String) (d : Duration) (maxSeconds : Nat) : List String :=
  firstFinding
    [(d.millis < 100, s!"{name} too short (minimum: 100ms)"),
      (maxSeconds < d.seconds, s!"{name} too long (maximum: {maxSeconds}s)")]

/-- A sealed reply of a handshake has to fit on one line. -/
def checkLineLength (n : UInt64) : List String :=
  firstFinding
    [(n < 1024, s!"Max line length too small: {n} (minimum: 1024)"),
      (16777216 < n, s!"Max line length too large: {n} (maximum: 16 MB)")]

namespace ServerSettings

def validate (s : ServerSettings) : List String :=
  firstFinding
    [(s.address.isEmpty, "Server address cannot be empty"),
      (!SocketAddress.isValid s.address,
        s!"Invalid server address format: '{s.address}' (expected format: '0.0.0.0:13370')")] ++
  firstFinding
    [(s.maxConnections = 0, "Max connections must be greater than 0"),
      (100000 < s.maxConnections, s!"Max connections very high: {s.maxConnections} " ++
        "(ensure system resources can support this)")] ++
  checkTimeout "Handshake timeout" s.handshakeTimeout 300 ++
  firstFinding
    [(s.shutdownTimeout.seconds < 1, "Shutdown timeout too short (minimum: 1s)"),
      (60 < s.shutdownTimeout.seconds, "Shutdown timeout too long (maximum: 60s)")] ++
  checkLineLength s.maxLineLength

end ServerSettings

namespace ClientSettings

def checkIdentity (name : String) : List String :=
  match Principal.check name with
  | .ok _ => []
  | .error e => [s!"Invalid client identity: {e.message}"]

def validate (c : ClientSettings) : List String :=
  firstFinding
    [(c.serverAddress.isEmpty, "Client server_address cannot be empty"),
      (!SocketAddress.isValid c.serverAddress,
        s!"Invalid client server_address format: '{c.serverAddress}' " ++
          "(expected format: '127.0.0.1:13370')")] ++
  checkIdentity c.identity ++
  c.privateAddress.elim [] (fun a =>
    finding (!SocketAddress.isValid a) s!"Invalid private_address format: '{a}'") ++
  checkTimeout "Connection timeout" c.connectionTimeout 300 ++
  checkTimeout "Handshake timeout" c.handshakeTimeout 300 ++
  checkTimeout "Response timeout" c.responseTimeout 3600 ++
  checkLineLength c.maxLineLength

end ClientSettings

namespace KeySettings

/-- A key file that is set has to be there. -/
def checkFile (t : FileTree) (name : String) (p : Option Path) : List String :=
  p.elim [] fun p => finding (!t.isFile p) s!"Key file for {name} not found: {p.text}"

def validate (k : KeySettings) (t : FileTree) : List String :=
  checkFile t "private_key" k.privateKey ++
  checkFile t "server_public_key" k.serverPublicKey ++
  checkFile t "hmac_key" k.hmacKey ++
  k.publicKeyDir.elim [] fun p =>
    finding (!t.isDirectory p) s!"Public key directory not found: {p.text}"

end KeySettings

namespace LogSettings

/-- There is no log file without a path. -/
def pathMissing : String := "log_file_path must be specified when log_to_file is true"

def outputMissing : String := "At least one logging output (console or file) must be enabled"

/-- The directory of the log file has to be there. A path of one step is in the current one. -/
def checkDirectory (t : FileTree) (p : Path) : List String :=
  p.parent?.elim [] fun parent =>
    finding (parent.text ≠ "" && !t.isThere parent)
      s!"Log file directory does not exist: {parent.text}"

def validate (l : LogSettings) (t : FileTree) : List String :=
  firstFinding
    [(l.appName.isEmpty, "Application name cannot be empty"),
      (64 < Utf8.size l.appName,
        s!"Application name too long: {Utf8.size l.appName} characters (maximum: 64)")] ++
  (if l.toFile then
    match l.filePath with
    | some p => checkDirectory t ⟨p⟩
    | none => [pathMissing]
  else []) ++
  finding (!l.toConsole && !l.toFile) outputMissing

end LogSettings

namespace Settings

def validate (s : Settings) (t : FileTree) : List String :=
  s.server.validate ++ s.client.validate ++ s.keys.validate t ++ s.logging.validate t

/-- Settings with findings are refused, with all of them in the message. -/
def validateStrict (s : Settings) (t : FileTree) : Outcome Unit :=
  match s.validate t with
  | [] => .ok ()
  | findings => .error (.config ("Configuration validation failed:\n  - " ++
      "\n  - ".intercalate findings))

end Settings

end SealedChat
