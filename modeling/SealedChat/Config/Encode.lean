import SealedChat.Config.Settings
import SealedChat.Toml.Print

/-!
# Settings as TOML

Every group of settings is a section, with its settings in order; those that are not set are left
out. Times are written in whole milliseconds. TOML has no integers from 2⁶³ on.
-/

namespace SealedChat

namespace Encode

open Toml (Scalar Section)

def integer (n : Nat) : Option Scalar := if n < Nat.pow 2 63 then some (.integer n) else none

def count (n : UInt64) : Option Scalar := integer n.toNat

/-- The milliseconds of a time, as a word of 64 bits. -/
def time (d : Duration) : Option Scalar := integer (d.millis % Nat.pow 2 64)

/-- An entry for a setting that may be absent. -/
def optional (name : String) (v : Option String) : Section :=
  (v.map fun s => (name, .string s)).toList

def server (s : ServerSettings) : Option Section := do
  return [("address", .string s.address), ("max_connections", ← count s.maxConnections),
    ("handshake_timeout", ← time s.handshakeTimeout),
    ("shutdown_timeout", ← time s.shutdownTimeout), ("max_line_length", ← count s.maxLineLength)]

def client (c : ClientSettings) : Option Section := do
  return [("server_address", .string c.serverAddress), ("identity", .string c.identity)] ++
    optional "private_address" c.privateAddress ++
    [("connection_timeout", ← time c.connectionTimeout),
      ("handshake_timeout", ← time c.handshakeTimeout),
      ("response_timeout", ← time c.responseTimeout), ("max_line_length", ← count c.maxLineLength)]

def keys (k : KeySettings) : Section :=
  let path (name : String) (p : Option Path) := optional name (p.map Path.text)
  path "private_key" k.privateKey ++ path "server_public_key" k.serverPublicKey ++
    path "public_key_dir" k.publicKeyDir ++ path "hmac_key" k.hmacKey

def logging (l : LogSettings) : Section :=
  [("app_name", .string l.appName), ("log_level", .string l.level.name),
    ("log_to_console", .boolean l.toConsole), ("log_to_file", .boolean l.toFile)] ++
  optional "log_file_path" l.filePath ++ [("json_format", .boolean l.json)]

end Encode

namespace Settings

/-- The sections that describe settings, unless a number is too large. -/
def toSections (s : Settings) : Option (List (String × Toml.Section)) := do
  return [("server", ← Encode.server s.server), ("client", ← Encode.client s.client),
    ("keys", Encode.keys s.keys), ("logging", Encode.logging s.logging)]

def toToml (s : Settings) : Option String := s.toSections.map Toml.print

/-- A file to start from, with all defaults in it. -/
def sample : String := (toToml {}).getD "# Failed to generate example config"

end Settings

end SealedChat
