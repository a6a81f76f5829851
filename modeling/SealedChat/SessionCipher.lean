import SealedChat.Cipher.Suite
import SealedChat.Keys.Material

/-!
# Session encryption

Each message of a session is encrypted under a nonce of its own: the session's vector, followed by
the message's number in its direction. The two directions differ in the top bit, so numbers stay
below 2⁶³. The functions of `SessionCrypt` are told the number and who has sent the message. A
`SessionCipher` knows its own side only, counts the messages of both directions, and moves a counter
only when the message was encrypted or decrypted.
-/

namespace SealedChat

/-- The two ends of a session. -/
inductive Role where
  | initiator
  | responder
deriving DecidableEq, Repr

def Role.name : Role → String
  | initiator => "Initiator"
  | responder => "Responder"

def Role.other : Role → Role
  | initiator => responder
  | responder => initiator

namespace SessionCrypt

/-- One more than the last message number: the bit above the numbers. -/
def directionBit : Nat := Nat.pow 2 63

/-- The direction of what an end sends. -/
def outbound : Role → Nat
  | .initiator => 0
  | .responder => directionBit

/-- The direction of what an end receives: the bit is the other way round. -/
def inbound (role : Role) : Nat := directionBit ^^^ outbound role

/-- The vector of a session, and the word of one of its messages. -/
def nonceOf (iv : Iv) (word : Nat) : Block 24 :=
  iv.block.append (n := 8) ⟨Bytes.bigEndian 8 word, by simp⟩

/-- The nonce of message `sequence` from `sender`. -/
def nonce (iv : Iv) (sender : Role) (sequence : Nat) : Block 24 :=
  nonceOf iv (outbound sender ||| sequence)

/-- The nonce of message `sequence` in a direction, while there are numbers. -/
def nonceFor (iv : Iv) (direction sequence : Nat) : Outcome (Block 24) :=
  if sequence < directionBit then .ok (nonceOf iv (direction ||| sequence))
  else .error .sequenceExhausted

variable [CipherSuite]

def encrypt (secrets : Secrets) (sender : Role) (sequence : Nat) (plain : Bytes) : Outcome Bytes := do
  let nonce ← nonceFor secrets.iv (outbound sender) sequence
  match CipherSuite.session.encrypt secrets.key.block nonce plain with
  | some c => return c
  | none => throw .encryptionFailed

def decrypt (secrets : Secrets) (sender : Role) (sequence : Nat) (cipher : Bytes) : Outcome Bytes := do
  let nonce ← nonceFor secrets.iv (outbound sender) sequence
  match CipherSuite.session.decrypt secrets.key.block nonce cipher with
  | some p => return p
  | none => throw .decryptionFailed

end SessionCrypt

/-- One end of a session: its secrets and role, and how many messages it has encrypted and decrypted. -/
structure SessionCipher where
  secrets : Secrets
  role : Role
  sent : Nat
  received : Nat
deriving DecidableEq

namespace SessionCipher

open SessionCrypt

def new (secrets : Secrets) (role : Role) : SessionCipher := ⟨secrets, role, 0, 0⟩

variable [CipherSuite]

def encrypt (s : SessionCipher) (plain : Bytes) : Outcome Bytes × SessionCipher :=
  match nonceFor s.secrets.iv (outbound s.role) s.sent with
  | .error e => (.error e, s)
  | .ok nonce =>
    match CipherSuite.session.encrypt s.secrets.key.block nonce plain with
    | some c => (.ok c, { s with sent := s.sent + 1 })
    | none => (.error .encryptionFailed, s)

def decrypt (s : SessionCipher) (cipher : Bytes) : Outcome Bytes × SessionCipher :=
  match nonceFor s.secrets.iv (inbound s.role) s.received with
  | .error e => (.error e, s)
  | .ok nonce =>
    match CipherSuite.session.decrypt s.secrets.key.block nonce cipher with
    | some p => (.ok p, { s with received := s.received + 1 })
    | none => (.error .decryptionFailed, s)

end SessionCipher

end SealedChat
