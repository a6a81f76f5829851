import SealedChat.Hash.Hmac
import SealedChat.Keys.Pair
import SealedChat.Text.Utf8

/-!
# Sealed boxes

A short message for the holder of a public key. The box holds a one-time public key, a nonce, and
the message encrypted under a key derived from the secret that the one-time key and the recipient's
key share. Both public keys go into the derivation, so a box cannot be moved to another recipient.
-/

namespace SealedChat.SealedBox

/-- The longest message, in bytes. -/
def maxPlaintext : Nat := 512

/-- The bytes of a box besides the message: one-time key, nonce and tag. -/
def overhead : Nat := 32 + 12 + 16

/-- The key of a box. -/
def key (secret : Block 32) (oneTime recipient : PublicKey) : Block 32 :=
  Hkdf.derive (oneTime.block.bytes ++ recipient.block.bytes) secret.bytes
    (Utf8.encode "secure-chat sealed v1")

variable [CipherSuite]

/-- A box for `recipient`. The size is checked before anything is drawn; then the one-time key is
drawn before the nonce. -/
def sealTo (recipient : PublicKey) (plain : Bytes) : Drawing Bytes := do
  if maxPlaintext < plain.length then throw (.oversizedPayload plain.length)
  let oneTime ← PrivateKey.generate
  let boxKey := key (oneTime.shared recipient) oneTime.publicKey recipient
  let nonce ← draw 12
  match CipherSuite.box.encrypt boxKey nonce plain with
  | some body => return oneTime.publicKey.block.bytes ++ nonce.bytes ++ body
  | none => throw .sealFailed

/-- The message of a box for the holder of `own`. -/
def openWith (own : PrivateKey) (box : Bytes) : Outcome Bytes :=
  if box.length < overhead then .error .sealedTooShort
  else
    let oneTime : PublicKey := ⟨.ofPrefix 32 box⟩
    let boxKey := key (own.shared oneTime) oneTime own.publicKey
    match CipherSuite.box.decrypt boxKey (.ofPrefix 12 (box.drop 32)) (box.drop 44) with
    | some plain => .ok plain
    | none => .error .openFailed

end SealedChat.SealedBox
