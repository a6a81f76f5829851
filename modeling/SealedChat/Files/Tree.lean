import SealedChat.Files.Path
import SealedChat.Text.Utf8

/-!
# Trees of files

A tree maps locations, the names on the way down from the root, to files and directories. A path is
walked step by step, from the root or from the current directory, and every step needs a directory
to start from. Names are text, and there are no links.
-/

namespace SealedChat

inductive FileError where
  | notFound
  | notDirectory
  | isDirectory
  | nameTooLong
  | zeroInPath
  | notText
deriving DecidableEq, Repr

def FileError.message : FileError → String
  | notFound => "No such file or directory (os error 2)"
  | notDirectory => "Not a directory (os error 20)"
  | isDirectory => "Is a directory (os error 21)"
  | nameTooLong => "File name too long (os error 36)"
  | zeroInPath => "file name contained an unexpected NUL byte"
  | notText => "stream did not contain valid UTF-8"

/-- The names on the way down from the root. -/
abbrev Location := List String

inductive Node where
  | file (content : Bytes)
  | directory
deriving DecidableEq

structure FileTree where
  nodes : List (Location × Node)
  /-- Where relative paths start. -/
  current : Location

namespace FileTree

/-- What is at a location. The root is always there. -/
def node? (t : FileTree) : Location → Option Node
  | [] => some .directory
  | l => t.nodes.lookup l

def put (t : FileTree) (l : Location) (n : Node) : FileTree :=
  { t with nodes := (l, n) :: t.nodes.filter (·.1 ≠ l) }

/-! ## Walking -/

/-- The longest name, in bytes. -/
def maxName : Nat := 255

/-- Paths are shorter than this, in bytes. -/
def maxPath : Nat := 4096

/-- The location that one step from a directory leads to. -/
def step (here : Location) (name : String) : Except FileError Location :=
  if name = "" ∨ name = "." then .ok here
  else if name = ".." then .ok here.dropLast
  else if maxName < Utf8.size name then .error .nameTooLong
  else .ok (here ++ [name])

/-- The location that steps lead to, whether there is something or not. -/
def walk (t : FileTree) (here : Location) : List String → Except FileError Location
  | [] => .ok here
  | name :: rest =>
    match t.node? here with
    | none => .error .notFound
    | some (.file _) => .error .notDirectory
    | some .directory => do walk t (← step here name) rest

/-- The location from which a path is walked, if the path is one at all. -/
def start (t : FileTree) (p : Path) : Except FileError Location :=
  if p.text.toList.any (· == '\x00') then .error .zeroInPath
  else if p.text = "" then .error .notFound
  else if maxPath ≤ Utf8.size p.text then .error .nameTooLong
  else .ok (if p.isAbsolute then [] else t.current)

/-- The location of a path and what is there. -/
def find (t : FileTree) (p : Path) : Except FileError (Location × Node) := do
  let l ← t.walk (← t.start p) p.steps
  match t.node? l with
  | some n => return (l, n)
  | none => throw .notFound

def isFile (t : FileTree) (p : Path) : Bool :=
  match t.find p with
  | .ok (_, .file _) => true
  | _ => false

def isDirectory (t : FileTree) (p : Path) : Bool :=
  match t.find p with
  | .ok (_, .directory) => true
  | _ => false

def isThere (t : FileTree) (p : Path) : Bool := (t.find p).isOk

/-! ## Reading -/

def read (t : FileTree) (p : Path) : Except FileError Bytes := do
  match ← t.find p with
  | (_, .file content) => return content
  | (_, .directory) => throw .isDirectory

def readText (t : FileTree) (p : Path) : Except FileError String := do
  match Utf8.decode? (← t.read p) with
  | some s => return s
  | none => throw .notText

/-- The names of what is directly below a location. -/
def namesBelow (t : FileTree) (l : Location) : List String :=
  (t.nodes.filterMap fun (k, _) => if k.dropLast = l then k.getLast? else none).eraseDups

/-- The names of the entries of a directory. -/
def list (t : FileTree) (p : Path) : Except FileError (List String) := do
  match ← t.find p with
  | (l, .directory) => return t.namesBelow l
  | (_, .file _) => throw .notDirectory

/-! ## Writing -/

/-- The steps to a place for a file: those to its directory, its name, and whether a slash follows
the name. -/
def aim (p : Path) : Option (List String × String × Bool) :=
  let named := (p.steps.reverse.dropWhile (· = "")).reverse
  named.getLast?.map fun name => (named.dropLast, name, named.length < p.steps.length)

/-- The location of a file that may be written, or created if it is not there. -/
def place (t : FileTree) (p : Path) : Except FileError Location := do
  let here ← t.start p
  match aim p with
  | none => throw .isDirectory
  | some (steps, name, slash) =>
    let directory ← t.walk here (steps ++ [""])
    if slash ∨ name = "." ∨ name = ".." then throw .isDirectory
    let l ← step directory name
    match t.node? l with
    | some .directory => throw .isDirectory
    | _ => return l

/-- Writes a file, whatever it held before. -/
def write (t : FileTree) (p : Path) (content : Bytes) : Except FileError FileTree :=
  (t.place p).map fun l => t.put l (.file content)

/-- Makes sure that there is a file, and keeps what it holds. -/
def touch (t : FileTree) (p : Path) : Except FileError FileTree := do
  let l ← t.place p
  return if (t.node? l).isSome then t else t.put l (.file [])

/-- Takes away a file, or a directory with everything in it. -/
def remove (t : FileTree) (p : Path) : Except FileError FileTree := do
  let (l, _) ← t.find p
  return { t with nodes := t.nodes.filter fun n => !l.isPrefixOf n.1 }

/-- Makes directories of names, each in the one before, where nothing is in the way. -/
def makeDirectories (t : FileTree) (names : List String) : FileTree :=
  (List.range names.length).foldl (fun t n =>
    let l := t.current ++ names.take (n + 1)
    if (t.node? l).isSome then t else t.put l .directory) t

/-- Makes the directories that steps from the current one name. -/
def enter (t : FileTree) (steps : List String) : FileTree :=
  t.makeDirectories (steps.filter fun s => s ≠ "" ∧ s ≠ ".")

/-- Writes a file, in directories that are made if they are not there. Nothing changes where that
cannot be done. -/
def establish (t : FileTree) (p : Path) (content : Bytes) : FileTree :=
  ((t.enter p.steps.dropLast).write p content).toOption.getD t

/-- A tree with nothing in it but the current directory and those above. -/
def bare (current : List String) : FileTree :=
  { (makeDirectories ⟨[], []⟩ current) with current }

end FileTree

end SealedChat
