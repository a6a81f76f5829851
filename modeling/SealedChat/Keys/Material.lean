import SealedChat.Base64
import SealedChat.Error
import SealedChat.Random.Draw

/-!
# Handshake material

What a handshake exchanges: challenges that prove who is there, and the key and initialization
vector of the session that follows. Their texts are exact: no blanks around them.
-/

namespace SealedChat

structure Challenge where
  block : Block 32
deriving DecidableEq

structure SessionKey where
  block : Block 32
deriving DecidableEq

structure Iv where
  block : Block 16
deriving DecidableEq

/-- The key and vector of one session. -/
structure Secrets where
  key : SessionKey
  iv : Iv
deriving DecidableEq

/-- The block of `n` bytes that a text spells; `what` names it in a refusal. -/
def blockOfText (n : Nat) (what : String) (text : String) : Outcome (Block n) :=
  match Base64.decodeText? text with
  | none => .error .malformedBase64
  | some b =>
    match Block.ofBytes? n b with
    | some x => .ok x
    | none => .error (.decoding s!"{what} must be {n} bytes, got {b.length}")

namespace Challenge

def toBase64 (c : Challenge) : String := Base64.encode c.block.bytes
def ofBase64 (text : String) : Outcome Challenge := Challenge.mk <$> blockOfText 32 "challenge" text
def fresh : Drawing Challenge := Challenge.mk <$> draw 32
def describe (c : Challenge) : String := "Challenge(" ++ c.toBase64 ++ ")"

end Challenge

namespace SessionKey

def toBase64 (k : SessionKey) : String := Base64.encode k.block.bytes
def ofBase64 (text : String) : Outcome SessionKey :=
  SessionKey.mk <$> blockOfText 32 "session key" text
def redacted (_ : SessionKey) : String := "SessionKey(<redacted>)"

end SessionKey

namespace Iv

def toBase64 (v : Iv) : String := Base64.encode v.block.bytes
def ofBase64 (text : String) : Outcome Iv := Iv.mk <$> blockOfText 16 "IV" text

end Iv

/-- Fresh secrets: the key is drawn before the vector. -/
def Secrets.fresh : Drawing Secrets := do
  let key ← draw 32
  let iv ← draw 16
  return ⟨⟨key⟩, ⟨iv⟩⟩

end SealedChat
