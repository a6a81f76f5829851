import SealedChat.Error
import SealedChat.Text.Utf8

/-!
# Who is online

The table maps each identity that is logged in to the connection that owns it. Binding never takes
an identity from its owner, and only the owner can release it. Nothing but the age of a session asks
when it began, so the table does not keep that.
-/

namespace SealedChat

abbrev ConnectionId := UInt64

structure SessionTable where
  /-- The owners by identity; no identity has two. -/
  owners : List (String × ConnectionId)
  totalBinds : UInt64
  rejectedBinds : UInt64

namespace SessionTable

def empty : SessionTable := ⟨[], 0, 0⟩

def connectionOf (t : SessionTable) (identity : String) : Option ConnectionId :=
  t.owners.lookup identity

def isOnline (t : SessionTable) (identity : String) : Bool := (t.connectionOf identity).isSome

def bind (t : SessionTable) (identity : String) (connection : ConnectionId) :
    Outcome Unit × SessionTable :=
  if t.isOnline identity then
    (.error .alreadyLoggedIn, { t with rejectedBinds := t.rejectedBinds + 1 })
  else
    (.ok (), { t with
      owners := (identity, connection) :: t.owners
      totalBinds := t.totalBinds + 1 })

/-- Releases an identity, if `connection` owns it. -/
def unbind (t : SessionTable) (identity : String) (connection : ConnectionId) :
    Bool × SessionTable :=
  if t.connectionOf identity = some connection then
    (true, { t with owners := t.owners.filter (·.1 ≠ identity) })
  else (false, t)

def clear (t : SessionTable) : SessionTable := { t with owners := [] }

def size (t : SessionTable) : Nat := t.owners.length

def isEmpty (t : SessionTable) : Bool := t.size == 0

/-- The identities that are online, in the order of their bytes. -/
def online (t : SessionTable) : List String :=
  (t.owners.map Prod.fst).mergeSort fun a b => decide (Utf8.encode a ≤ Utf8.encode b)

/-- How many identities are online, and how many calls have bound one or were refused it. -/
structure Stats where
  online : Nat
  totalBinds : UInt64
  rejectedBinds : UInt64
deriving DecidableEq, Repr

def stats (t : SessionTable) : Stats := ⟨t.size, t.totalBinds, t.rejectedBinds⟩

end SessionTable

end SealedChat
