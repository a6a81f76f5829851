import SealedChat.Cipher.ChaCha20
import SealedChat.Cipher.Poly1305

/-!
# Authenticated encryption

An `Aead n` encrypts under a key and a nonce of `n` bytes and refuses whatever it did not produce
under the same key and nonce. Two are given: ChaCha20-Poly1305 with a nonce of 12 bytes, and its
extension to 24 bytes, which first derives a key from the head of the nonce.
-/

namespace SealedChat

/-- Authenticated encryption with nonces of `n` bytes. -/
structure Aead (n : Nat) where
  /-- The ciphertext of a plaintext, unless the plaintext is too long. -/
  encrypt : Block 32 → Block n → Bytes → Option Bytes
  /-- The plaintext of a ciphertext that is genuine. -/
  decrypt : Block 32 → Block n → Bytes → Option Bytes

namespace ChaChaPoly

/-- Zeros up to a whole number of groups of sixteen. -/
def padding (n : Nat) : Bytes := List.replicate ((16 - n % 16) % 16) 0

/-- The tag of a ciphertext: the authenticator's key is the head of the stream's block 0. -/
def tag (key : Block 32) (nonce : Block 12) (body : Bytes) : Block 16 :=
  Poly1305.tag ((ChaCha20.block key nonce 0).take 32)
    (body ++ padding body.length ++ Bytes.littleEndian 8 0 ++ Bytes.littleEndian 8 body.length)

/-- The stream has 2³² - 1 blocks of 64 bytes for the text. -/
def fits (n : Nat) : Bool := n / 64 < Nat.pow 2 32 - 1

def encrypt (key : Block 32) (nonce : Block 12) (plain : Bytes) : Option Bytes :=
  if fits plain.length then
    let body := ChaCha20.apply key nonce 1 plain
    some (body ++ (tag key nonce body).bytes)
  else none

/-- The last sixteen bytes are the tag, and are checked before anything is decrypted. -/
def decrypt (key : Block 32) (nonce : Block 12) (sealed : Bytes) : Option Bytes :=
  let body := sealed.take (sealed.length - 16)
  if 16 ≤ sealed.length ∧ fits body.length ∧
      sealed.drop (sealed.length - 16) = (tag key nonce body).bytes then
    some (ChaCha20.apply key nonce 1 body)
  else none

/-- ChaCha20-Poly1305 with the short nonce. -/
def short : Aead 12 := ⟨encrypt, decrypt⟩

/-- The key and short nonce that a long nonce leads to. -/
def shorten (key : Block 32) (nonce : Block 24) : Block 32 × Block 12 :=
  (ChaCha20.subkey key ⟨nonce.bytes.take 16, by simp [nonce.length_bytes]⟩,
    ⟨List.replicate 4 0 ++ nonce.bytes.drop 16, by simp [nonce.length_bytes]⟩)

/-- XChaCha20-Poly1305: the extension to a nonce of 24 bytes. -/
def long : Aead 24 where
  encrypt key nonce := let k := shorten key nonce; encrypt k.1 k.2
  decrypt key nonce := let k := shorten key nonce; decrypt k.1 k.2

end ChaChaPoly

end SealedChat
