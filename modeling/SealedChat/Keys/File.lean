import SealedChat.Files.Tree
import SealedChat.Keys.Integrity
import SealedChat.Keys.Pair

/-!
# Key files

A key is stored as one line of Base64. A file may have blanks around it.
-/

namespace SealedChat

/-- The text of a key file; `what` names the key in a refusal. -/
def keyText (t : FileTree) (p : Path) (what : String) : Outcome String :=
  match t.readText p with
  | .ok s => .ok s
  | .error e => .error (.config s!"Failed to read {what} '{p.text}': {e.message}")

/-- The tree with a key text in a file. -/
def writeKeyText (t : FileTree) (p : Path) (what text : String) : Outcome FileTree :=
  match t.write p (Utf8.encode text) with
  | .ok t => .ok t
  | .error e => .error (.config s!"Failed to write {what}: {e.message}")

namespace PrivateKey

def load (t : FileTree) (p : Path) : Outcome PrivateKey := do
  ofBase64 (← keyText t p "private key")

def save (k : PrivateKey) (t : FileTree) (p : Path) : Outcome FileTree :=
  writeKeyText t p "private key" k.toBase64

end PrivateKey

namespace PublicKey

def load (t : FileTree) (p : Path) : Outcome PublicKey := do
  ofBase64 (← keyText t p "public key")

def save (k : PublicKey) (t : FileTree) (p : Path) : Outcome FileTree :=
  writeKeyText t p "public key" k.toBase64

end PublicKey

def IntegrityKey.load (t : FileTree) (p : Path) : Outcome IntegrityKey := do
  ofBase64 (← keyText t p "integrity key")

end SealedChat
