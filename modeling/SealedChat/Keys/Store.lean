import SealedChat.Keys.Pair
import SealedChat.Principal

/-!
# Key stores

Where the public keys of principals are looked up. A key ring holds them by name, the newest entry
first.
-/

namespace SealedChat

/-- Anything that knows the keys of principals. -/
structure KeyStore where
  find : String → Outcome PublicKey

structure KeyRing where
  entries : List (String × PublicKey)

namespace KeyRing

def empty : KeyRing := ⟨[]⟩

/-- The key ring with a key, which replaces an earlier one of the same name. -/
def put (r : KeyRing) (name : String) (key : PublicKey) : KeyRing :=
  ⟨(name, key) :: r.entries.filter (·.1 ≠ name)⟩

/-- Adds the key of a principal, if the name is one. -/
def insert (r : KeyRing) (name : String) (key : PublicKey) : Outcome KeyRing := do
  Principal.check name
  return r.put name key

def size (r : KeyRing) : Nat := r.entries.length

def find (r : KeyRing) (name : String) : Outcome PublicKey :=
  match r.entries.lookup name with
  | some key => .ok key
  | none => .error (.unknownPrincipal name)

def toStore (r : KeyRing) : KeyStore := ⟨r.find⟩

end KeyRing

end SealedChat
