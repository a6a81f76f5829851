import SealedChat.Base64
import SealedChat.Cipher.Suite
import SealedChat.Error
import SealedChat.Random.Draw
import SealedChat.Text.Blank

/-!
# Private and public keys

A key is kept as it was drawn or received and is written in Base64. A key text may stand between
blanks, so a file with a final line break is a key text too.
-/

namespace SealedChat

structure PrivateKey where
  block : Block 32
deriving DecidableEq

structure PublicKey where
  block : Block 32
deriving DecidableEq

/-- The block of 32 bytes that a key text spells; `what` names the key in a refusal. -/
def keyBlockOfText (what : String) (text : String) : Outcome (Block 32) :=
  match Base64.decodeChars? (Blank.trim text.toList) with
  | none => .error .malformedBase64
  | some b =>
    match Block.ofBytes? 32 b with
    | some k => .ok k
    | none => .error (.config s!"{what} must be 32 bytes, got {b.length}")

namespace PublicKey

def toBase64 (k : PublicKey) : String := Base64.encode k.block.bytes

def ofBase64 (text : String) : Outcome PublicKey := PublicKey.mk <$> keyBlockOfText "public key" text

end PublicKey

namespace PrivateKey

def toBase64 (k : PrivateKey) : String := Base64.encode k.block.bytes

def ofBase64 (text : String) : Outcome PrivateKey :=
  PrivateKey.mk <$> keyBlockOfText "private key" text

def generate : Drawing PrivateKey := do
  return ⟨← draw 32⟩

variable [CipherSuite]

def publicKey (k : PrivateKey) : PublicKey := ⟨CipherSuite.publicKey k.block⟩

/-- The secret shared with the holder of a public key. -/
def shared (k : PrivateKey) (opposite : PublicKey) : Block 32 :=
  CipherSuite.shared k.block opposite.block

/-- What a log may show of a private key: its public key. -/
def redacted (k : PrivateKey) : String := "PrivateKey(public=" ++ k.publicKey.toBase64 ++ ")"

end PrivateKey

end SealedChat
