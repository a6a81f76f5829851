import SealedChat.Cipher.Aead
import SealedChat.Cipher.X25519

/-!
# The cipher suite

The primitives that channels and handshakes are built on: key agreement, authenticated encryption
of sealed boxes, and that of sessions. Everything above is written for any suite, so it can be
reasoned about from the laws of its primitives; `CipherSuite.standard` is the one in use.
-/

namespace SealedChat

class CipherSuite where
  /-- The public key of a private key. -/
  publicKey : Block 32 → Block 32
  /-- The secret that a private key shares with the holder of a public key's counterpart. -/
  shared : (own opposite : Block 32) → Block 32
  /-- The encryption of sealed boxes. -/
  box : Aead 12
  /-- The encryption of sessions. -/
  session : Aead 24

/-- Curve25519, ChaCha20-Poly1305 and its extension to long nonces. -/
@[reducible] def CipherSuite.standard : CipherSuite where
  publicKey := X25519.publicKey
  shared := X25519.shared
  box := ChaChaPoly.short
  session := ChaChaPoly.long

end SealedChat
