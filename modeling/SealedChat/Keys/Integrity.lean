import SealedChat.Base64
import SealedChat.Error
import SealedChat.Hash.Hmac
import SealedChat.Random.Draw
import SealedChat.Text.Blank

/-!
# Integrity keys

A key that two parties share to tag what they send each other in the clear.
-/

namespace SealedChat

/-- At least sixteen bytes. -/
structure IntegrityKey where
  bytes : Bytes
  sixteen_le : 16 ≤ bytes.length

namespace IntegrityKey

def ofBytes (b : Bytes) : Outcome IntegrityKey :=
  if h : 16 ≤ b.length then .ok ⟨b, h⟩
  else .error (.config s!"Integrity key too short: {b.length} bytes (minimum: 16)")

def toBase64 (k : IntegrityKey) : String := Base64.encode k.bytes

/-- A key text may stand between blanks. -/
def ofBase64 (text : String) : Outcome IntegrityKey :=
  match Base64.decodeChars? (Blank.trim text.toList) with
  | none => .error .malformedBase64
  | some b => ofBytes b

def generate : Drawing IntegrityKey := do
  let b ← draw 32
  return ⟨b.bytes, by simp [b.length_bytes]⟩

def tag (k : IntegrityKey) (message : Bytes) : Block 32 := Hmac.tag k.bytes message

/-- Only the whole tag of a message is genuine. -/
def verify (k : IntegrityKey) (message tag : Bytes) : Bool := (k.tag message).bytes = tag

/-- What a log may show of an integrity key. -/
def redacted (_ : IntegrityKey) : String := "IntegrityKey(<redacted>)"

end IntegrityKey

end SealedChat
