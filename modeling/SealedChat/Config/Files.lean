import SealedChat.Config.Decode
import SealedChat.Config.Encode
import SealedChat.Keys.Directory

/-!
# Settings and files

Settings are loaded from files and saved to them, and name the files that keys are loaded from.
-/

namespace SealedChat

/-- Why settings cannot be loaded. -/
inductive LoadError where
  | failed (e : ChatError)
  | flawed (f : Flaw)
deriving DecidableEq, Repr

namespace LoadError

def toError : LoadError → ChatError
  | failed e => e
  | flawed f => f.toError

def detail? : LoadError → Option String
  | failed _ => none
  | flawed f => f.detail?

end LoadError

namespace Settings

/-- A directory can be opened as a file, but not read as one. -/
def unreadable (e : FileError) : ChatError :=
  match e with
  | .isDirectory | .notText => .config s!"Failed to read config file: {e.message}"
  | _ => .config s!"Failed to open config file: {e.message}"

def load (t : FileTree) (p : Path) : Except LoadError Settings :=
  match t.readText p with
  | .error e => .error (.failed (unreadable e))
  | .ok text => (ofToml text).mapError .flawed

/-- The tree with the settings in a file. Nothing is written if they cannot be expressed. -/
def save (s : Settings) (t : FileTree) (p : Path) : Outcome FileTree :=
  match s.toToml with
  | none => .error (.config "Failed to serialize config")
  | some text =>
    match t.write p (Utf8.encode text) with
    | .ok t => .ok t
    | .error e => .error (.config s!"Failed to write config file: {e.message}")

end Settings

namespace KeySettings

def configured (p : Option Path) (name : String) : Outcome Path :=
  p.elim (.error (.config s!"keys.{name} is not configured")) .ok

def loadPrivateKey (k : KeySettings) (t : FileTree) : Outcome PrivateKey := do
  PrivateKey.load t (← configured k.privateKey "private_key")

def loadServerKey (k : KeySettings) (t : FileTree) : Outcome PublicKey := do
  PublicKey.load t (← configured k.serverPublicKey "server_public_key")

def openDirectory (k : KeySettings) (t : FileTree) : Outcome KeyDirectory := do
  KeyDirectory.readFrom t (← configured k.publicKeyDir "public_key_dir")

def loadIntegrityKey (k : KeySettings) (t : FileTree) : Outcome IntegrityKey := do
  IntegrityKey.load t (← configured k.hmacKey "hmac_key")

end KeySettings

end SealedChat
