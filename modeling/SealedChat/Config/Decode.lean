import SealedChat.Config.Environment
import SealedChat.Toml.Document

/-!
# Settings from TOML

A document has a section for each group of settings. A section that is left out has its defaults; one
that is there has to name every setting that is not optional. What the settings do not know is
passed over. Entries are looked at in the order of the document, and the first flaw counts.
-/

namespace SealedChat

open Toml (Item)

/-- What is wrong with a text that should describe settings. -/
inductive Flaw where
  /-- It is not TOML. -/
  | malformed
  /-- A value is of the wrong kind. -/
  | unsuitable
  | missing (field : String)
  | level (text : String)
deriving DecidableEq, Repr

namespace Flaw

/-- A flaw in words, for those that lie in the settings and not in the language. -/
def detail? : Flaw → Option String
  | missing field => some ("missing field `" ++ field ++ "`")
  | level text => some (Settings.invalidLevel text)
  | malformed | unsuitable => none

def toError (_ : Flaw) : ChatError := .config "Failed to parse TOML"

end Flaw

namespace Decode

/-! ## Values -/

def text : Item → Except Flaw String
  | .string s => .ok s
  | _ => .error .unsuitable

def path (i : Item) : Except Flaw Path := Path.mk <$> text i

/-- A number that is not negative. -/
def count : Item → Except Flaw UInt64
  | .integer (.ofNat n) => .ok (.ofNat n)
  | _ => .error .unsuitable

/-- A time in milliseconds. -/
def time (i : Item) : Except Flaw Duration := (fun n => .ofMillis n.toNat) <$> count i

def switch : Item → Except Flaw Bool
  | .boolean b => .ok b
  | _ => .error .unsuitable

def level (i : Item) : Except Flaw LogLevel := do
  let s ← text i
  match LogLevel.ofText? s with
  | some l => return l
  | none => throw (.level s)

/-! ## Sections -/

inductive Kind where
  | text
  | count
  | switch
  | level
deriving DecidableEq, Repr

def Kind.check (k : Kind) (i : Item) : Except Flaw Unit :=
  match k with
  | text => discard (Decode.text i)
  | count => discard (Decode.count i)
  | switch => discard (Decode.switch i)
  | level => discard (Decode.level i)

/-- The settings of a section, in their order. -/
abbrev Fields := List (String × Kind)

/-- Checks entries in turn, as far as the section knows them. -/
def checkEntries (fields : Fields) (entries : Toml.Table) : Except Flaw Unit :=
  entries.forM fun (name, i) =>
    match fields.lookup name with
    | some kind => kind.check i
    | none => .ok ()

/-- The entries of a section. They may also be given as an array of all values in their order, and
a date has none of them. -/
def entriesOf (fields : Fields) (i : Item) : Except Flaw Toml.Table := do
  let listed (items : List Item) : Except Flaw Toml.Table := do
    let entries := (fields.map Prod.fst).zip items
    checkEntries fields entries
    if items.length < fields.length then throw .unsuitable
    return entries
  match i with
  | .table _ entries =>
    checkEntries fields entries
    return entries
  | .date _ => return []
  | .array items => listed items
  | .rows tables => listed (tables.map (.table .header))
  | _ => throw .unsuitable

variable {α : Type}

def required (entries : Toml.Table) (name : String) (read : Item → Except Flaw α) : Except Flaw α :=
  match entries.lookup name with
  | some i => read i
  | none => .error (.missing name)

def optional (entries : Toml.Table) (name : String) (read : Item → Except Flaw α) :
    Except Flaw (Option α) :=
  match entries.lookup name with
  | some i => some <$> read i
  | none => .ok none

def serverFields : Fields :=
  [("address", .text), ("max_connections", .count), ("handshake_timeout", .count),
    ("shutdown_timeout", .count), ("max_line_length", .count)]

def server (i : Item) : Except Flaw ServerSettings := do
  let es ← entriesOf serverFields i
  return {
    address := ← required es "address" text
    maxConnections := ← required es "max_connections" count
    handshakeTimeout := ← required es "handshake_timeout" time
    shutdownTimeout := ← required es "shutdown_timeout" time
    maxLineLength := ← required es "max_line_length" count }

def clientFields : Fields :=
  [("server_address", .text), ("identity", .text), ("private_address", .text),
    ("connection_timeout", .count), ("handshake_timeout", .count), ("response_timeout", .count),
    ("max_line_length", .count)]

def client (i : Item) : Except Flaw ClientSettings := do
  let es ← entriesOf clientFields i
  return {
    serverAddress := ← required es "server_address" text
    identity := ← required es "identity" text
    privateAddress := ← optional es "private_address" text
    connectionTimeout := ← required es "connection_timeout" time
    handshakeTimeout := ← required es "handshake_timeout" time
    responseTimeout := ← required es "response_timeout" time
    maxLineLength := ← required es "max_line_length" count }

def keyFields : Fields :=
  [("private_key", .text), ("server_public_key", .text), ("public_key_dir", .text),
    ("hmac_key", .text)]

def keys (i : Item) : Except Flaw KeySettings := do
  let es ← entriesOf keyFields i
  return {
    privateKey := ← optional es "private_key" path
    serverPublicKey := ← optional es "server_public_key" path
    publicKeyDir := ← optional es "public_key_dir" path
    hmacKey := ← optional es "hmac_key" path }

def logFields : Fields :=
  [("app_name", .text), ("log_level", .level), ("log_to_console", .switch),
    ("log_to_file", .switch), ("log_file_path", .text), ("json_format", .switch)]

def logging (i : Item) : Except Flaw LogSettings := do
  let es ← entriesOf logFields i
  return {
    appName := ← required es "app_name" text
    level := ← required es "log_level" level
    toConsole := ← required es "log_to_console" switch
    toFile := ← required es "log_to_file" switch
    filePath := ← optional es "log_file_path" text
    json := ← required es "json_format" switch }

/-- Takes over one section of a document. -/
def addSection (s : Settings) (e : String × Item) : Except Flaw Settings :=
  match e with
  | ("server", i) => (server i).map fun server => { s with server }
  | ("client", i) => (client i).map fun client => { s with client }
  | ("keys", i) => (keys i).map fun keys => { s with keys }
  | ("logging", i) => (logging i).map fun logging => { s with logging }
  | _ => .ok s

end Decode

namespace Settings

def ofTable (t : Toml.Table) : Except Flaw Settings := t.foldlM Decode.addSection {}

def ofToml (text : String) : Except Flaw Settings :=
  match Toml.parse text with
  | some t => ofTable t
  | none => .error .malformed

end Settings

end SealedChat
