import SealedChat.Text.Utf8

/-!
# Verified payloads

A payload that came with a tag, and whether the tag belongs to it. A payload is kept in either case:
the reader decides what to do with one that was tampered with.
-/

namespace SealedChat

inductive Verified where
  | authentic (payload : Bytes)
  | tampered (payload : Bytes)
deriving DecidableEq

namespace Verified

def payload : Verified → Bytes
  | authentic p | tampered p => p

def isAuthentic : Verified → Bool
  | authentic _ => true
  | tampered _ => false

/-- The payload as text, broken parts replaced. -/
def text (v : Verified) : String := Utf8.decodeLossy v.payload

end Verified

end SealedChat
