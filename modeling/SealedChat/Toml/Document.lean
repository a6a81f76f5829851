import SealedChat.Toml.Number

/-!
# TOML documents

A document is read line by line and built up as a table: an entry goes to the table whose header
stands above it. Tables may be named in any order, but what is defined once cannot be defined again
or be added to in another way.
-/

namespace SealedChat.Toml

open Reading

/-! ## Building tables -/

namespace Table

def set (t : Table) (key : String) (i : Item) : Table :=
  if t.any (·.1 = key) then t.map fun e => if e.1 = key then (key, i) else e else t ++ [(key, i)]

def without (t : Table) (key : String) : Table := t.filter (·.1 ≠ key)

/-- Changes the table at the end of a path. `way` is how the path leads there: tables that are
missing on it are made that way, and the path of dotted keys does not lead into a table that is
complete. The change is told how the table came to be. -/
def change {α : Type} (way : Origin) :
    (path : List String) → (Origin → StateT Table Option α) → Origin → StateT Table Option α
  | [], f, origin => f origin
  | key :: path, f, _ => fun t =>
    match t.lookup key with
    | none => do
      let (a, sub) ← change way path f way []
      return (a, set t key (.table way sub))
    | some (.table origin sub) =>
      if origin = .value ∨ (way = .dotted ∧ origin = .header) then none
      else do
        let (a, sub) ← change way path f origin sub
        return (a, set t key (.table origin sub))
    | some (.rows tables) => do
      let (a, last) ← change way path f .header (tables.getLast?.getD [])
      return (a, set t key (.rows (tables.dropLast ++ [last])))
    | some _ => none

/-- Adds an entry that is not there yet. -/
def add (key : String) (i : Item) : StateT Table Option Unit := fun t =>
  if (t.lookup key).isSome then none else some ((), set t key i)

/-- Adds an entry at the end of a dotted key. Only tables that dotted keys have made take part. -/
def addDotted (path : List String) (i : Item) : StateT Table Option Unit :=
  match path.getLast? with
  | none => failure
  | some key =>
    change .dotted path.dropLast (fun origin =>
      if path.dropLast ≠ [] ∧ origin ≠ .dotted then failure else add key i) .header

end Table

/-! ## Keys and values -/

def isKeyChar (c : Char) : Bool :=
  Digits.isOf 10 c || ('a' ≤ c && c ≤ 'z') || ('A' ≤ c && c ≤ 'Z') || c = '-' || c = '_'

def simpleKey : Reading String :=
  basicString <|> literalString <|> (do return String.ofList (← span₁ isKeyChar))

/-- Values are nested less deep than this, and keys have fewer parts. -/
def nestingLimit : Nat := 80

/-- The parts of a key, with dots between them. -/
def key : Reading (List String) := do
  let parts ← separated (exactly '.') (do gap; let k ← simpleKey; gap; return k)
  refuse (nestingLimit ≤ parts.length)
  return parts

/-- The rest of an array, whose elements are read by `element`. A comma may follow the last. -/
def arrayRest (element : Reading Item) : Reading Item := do
  let items ← attempt do
    let items ← separated (exactly ',') (do spread; let i ← element; spread; return i)
    let _ ← attempt (exactly ',')
    return items
  spread
  exactly ']'
  return .array (items.getD [])

/-- The rest of a table between braces, whose values are read by `element`. -/
def tableRest (element : Reading Item) : Reading Item := do
  let entry : Reading (List String × Item) := do
    let k ← key
    exactly '='
    gap
    let i ← element
    gap
    return (k, i)
  let entries ← attempt (separated (exactly ',') entry)
  gap
  exactly '}'
  match (entries.getD []).foldlM (fun t (k, i) => (Table.addDotted k i t).map Prod.snd) [] with
  | some t => return .table .value t
  | none => failure

/-- A value with at most `depth` levels of arrays and tables. -/
def value : (depth : Nat) → Reading Item
  | 0 => scalar
  | depth + 1 => fun s =>
    match s with
    | '[' :: r => arrayRest (value depth) r
    | '\x7b' :: r => tableRest (value depth) r
    | _ => scalar s

/-! ## Lines -/

inductive Line where
  | empty
  | entry (key : List String) (item : Item)
  | header (key : List String)
  | row (key : List String)

def line : Reading Line := do
  match ← peek with
  | none => failure
  | some '#' =>
    comment
    lineEnd
    return .empty
  | some '[' =>
    exactly '['
    match ← attempt (exactly '[') with
    | some () =>
      let k ← key
      literal [']', ']']
      lineRest
      return .row k
    | none =>
      let k ← key
      exactly ']'
      lineRest
      return .header k
  | some '\n' | some '\r' =>
    newline
    return .empty
  | some _ =>
    let k ← key
    exactly '='
    gap
    let i ← value (nestingLimit - 1)
    lineRest
    return .entry k i

/-- All lines of a text, which may start with a byte order mark. -/
def lines : Reading (List Line) := do
  let _ ← attempt (exactly '\uFEFF')
  gap
  let ls ← many (do let l ← line; gap; return l)
  finished
  return ls

/-! ## The document -/

/-- A document of which some lines have been read: the tables that are complete, and the one that
entries go to now, with its path and whether it is a row. -/
structure Draft where
  complete : Table
  current : Table
  path : List String
  isRow : Bool

namespace Draft

def empty : Draft := ⟨[], [], [], false⟩

/-- The current table goes to its place. -/
def finish (d : Draft) : Option Table :=
  match d.path.getLast? with
  | none => some d.current
  | some key =>
    let place : StateT Table Option Unit :=
      Table.change .implied d.path.dropLast (fun _ t =>
        if d.isRow then
          match t.lookup key with
          | none => some ((), Table.set t key (.rows [d.current]))
          | some (.rows tables) => some ((), Table.set t key (.rows (tables ++ [d.current])))
          | some _ => none
        else (Table.add key (.table .header d.current)) t) .header
    (place d.complete).map Prod.snd

/-- Begins a table. One that was only passed through so far keeps what it has. -/
def beginTable (path : List String) (t : Table) : Option Draft :=
  match path.getLast? with
  | none => none
  | some key =>
    let take : StateT Table Option Table :=
      Table.change .implied path.dropLast (fun _ t =>
        match t.lookup key with
        | none => some ([], t)
        | some (.table .implied sub) => some (sub, Table.without t key)
        | some _ => none) .header
    (take t).map fun (current, complete) => ⟨complete, current, path, false⟩

/-- Begins a row, of tables whose rows have begun or of new ones. -/
def beginRow (path : List String) (t : Table) : Option Draft :=
  match path.getLast? with
  | none => none
  | some key =>
    let reserve : StateT Table Option Unit :=
      Table.change .implied path.dropLast (fun _ t =>
        match t.lookup key with
        | none => some ((), Table.set t key (.rows []))
        | some (.rows tables) => some ((), Table.set t key (.rows tables))
        | some _ => none) .header
    (reserve t).map fun (_, complete) => ⟨complete, [], path, true⟩

def add (d : Draft) : Line → Option Draft
  | .empty => some d
  | .entry k i => (Table.addDotted k i d.current).map fun (_, current) => { d with current }
  | .header k => d.finish >>= beginTable k
  | .row k => d.finish >>= beginRow k

end Draft

/-- The table that a text describes. -/
def parse (s : String) : Option Table := do
  let (ls, _) ← lines s.toList
  (← ls.foldlM Draft.add .empty).finish

end SealedChat.Toml
