import SealedChat.Keys.File
import SealedChat.Keys.Store

/-!
# Key directories

The public keys of principals as files of one directory, each named after its principal. The
directory is read as a whole, when it is opened and when it is read again; a lookup sees what was
there at that time.
-/

namespace SealedChat

structure KeyDirectory where
  path : Path
  ring : KeyRing

namespace KeyDirectory

def extension : List Char := ".pub".toList

/-- The principal after whom a file is named: what stands before the extension, if that is not
empty. -/
def owner? (fileName : String) : Option String :=
  match Words.after? extension.reverse fileName.toList.reverse with
  | none | some [] => none
  | some name => some (String.ofList name.reverse)

/-- Adds the key in a file of the directory. A file that cannot be used is passed over. -/
def collect (t : FileTree) (p : Path) (ring : KeyRing) (fileName : String) : KeyRing :=
  match owner? fileName with
  | none => ring
  | some name =>
    match (do ring.insert name (← PublicKey.load t (p.entry fileName)) : Outcome KeyRing) with
    | .ok ring => ring
    | .error _ => ring

def scan (t : FileTree) (p : Path) : Outcome KeyRing :=
  match t.list p with
  | .ok names => .ok (names.foldl (collect t p) .empty)
  | .error e => .error (.config s!"Failed to read key directory '{p.text}': {e.message}")

def readFrom (t : FileTree) (p : Path) : Outcome KeyDirectory := do
  return ⟨p, ← scan t p⟩

/-- Reads the directory again, and tells how many keys it has. When that fails the keys of before
stay. -/
def reload (d : KeyDirectory) (t : FileTree) : Outcome Nat × KeyDirectory :=
  match scan t d.path with
  | .ok ring => (.ok ring.size, { d with ring })
  | .error e => (.error e, d)

def find (d : KeyDirectory) (name : String) : Outcome PublicKey := do
  Principal.check name
  d.ring.find name

def toStore (d : KeyDirectory) : KeyStore := ⟨d.find⟩

end KeyDirectory

end SealedChat
