import SealedChat.Hash.Sha256

/-!
# Keyed hashing and key derivation

HMAC with SHA-256, and HKDF for one block of output: a salted extraction followed by one expansion
step.
-/

namespace SealedChat.Hmac

/-- The key as one block of the hash: hashed first when it is longer, filled up with zeros. -/
def keyBlock (key : Bytes) : Bytes :=
  let k := if key.length > 64 then (Sha256.digest key).bytes else key
  k ++ List.replicate (64 - k.length) 0

/-- The tag of a message under a key. -/
def tag (key message : Bytes) : Block 32 :=
  let k := keyBlock key
  let inner := Sha256.digest (k.map (· ^^^ 0x36) ++ message)
  Sha256.digest (k.map (· ^^^ 0x5c) ++ inner.bytes)

end SealedChat.Hmac

namespace SealedChat.Hkdf

/-- A key of 32 bytes from keying material, bound to a salt and to a purpose. -/
def derive (salt material purpose : Bytes) : Block 32 :=
  Hmac.tag (Hmac.tag salt material).bytes (purpose ++ [1])

end SealedChat.Hkdf
