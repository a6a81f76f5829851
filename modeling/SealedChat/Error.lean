/-!
# What can go wrong

A failed operation answers with a cause. Causes fall into kinds (`ChatError.kind`), some of them
only say that the other side has gone (`ChatError.isDisconnect`), and each has a text for logs
(`ChatError.message`) and one for the person at the keyboard (`ChatError.userMessage`).
-/

namespace SealedChat

inductive ChatError where
  /-- The operating system refused. -/
  | io (detail : String)
  /-- The line transport refused. -/
  | transport (detail : String)
  | connectionClosed
  | shutdown
  | timeout
  /-- Received bytes do not decode, open or decrypt. -/
  | decoding (detail : String)
  /-- A payload of this many bytes is too large to seal. -/
  | oversizedPayload (size : Nat)
  | invalidPayload (detail : String)
  | handshake (detail : String)
  /-- A tag does not belong to the content it came with. -/
  | integrityMismatch (content : String)
  | session (detail : String)
  | config (detail : String)
  | cryptoUnavailable (detail : String)
  | custom (detail : String)
deriving DecidableEq, Repr

namespace ChatError

inductive Kind where
  | transport
  | decoding
  | handshake
  | integrity
  | config
  | other
deriving DecidableEq, Repr

def Kind.name : Kind → String
  | transport => "Transport"
  | decoding => "Decoding"
  | handshake => "Handshake"
  | integrity => "Integrity"
  | config => "Config"
  | other => "Other"

def kind : ChatError → Kind
  | io _ | transport _ | connectionClosed | shutdown | timeout => .transport
  | decoding _ => .decoding
  | handshake _ => .handshake
  | integrityMismatch _ => .integrity
  | config _ | cryptoUnavailable _ | oversizedPayload _ | invalidPayload _ => .config
  | session _ | custom _ => .other

/-- The connection is over, and nothing that arrived is at fault. -/
def isDisconnect : ChatError → Bool
  | connectionClosed | shutdown | io _ => true
  | _ => false

def message : ChatError → String
  | io detail => "I/O error: " ++ detail
  | transport detail => "Transport error: " ++ detail
  | connectionClosed => "Connection closed"
  | shutdown => "Shutdown requested"
  | timeout => "Timeout occurred"
  | decoding detail => "Decoding error: " ++ detail
  | oversizedPayload size => s!"Payload too large: {size} bytes"
  | invalidPayload detail => "Invalid payload: " ++ detail
  | handshake detail => "Handshake failed: " ++ detail
  | integrityMismatch _ => "Authentication tag mismatch"
  | session detail => "Session error: " ++ detail
  | config detail => "Configuration error: " ++ detail
  | cryptoUnavailable detail => "Crypto context unavailable: " ++ detail
  | custom detail => "Custom error: " ++ detail

/-- A mismatch shows the content that was tampered with; every other cause shows its message. -/
def userMessage (e : ChatError) : String :=
  match e, e.kind with
  | integrityMismatch content, _ => "Message tampered: " ++ content
  | e, .transport => "Could not connect: " ++ e.message
  | e, .handshake => "Authentication failed: " ++ e.message
  | e, .decoding => "Received corrupted data: " ++ e.message
  | e, .config => "Configuration problem: " ++ e.message
  | e, _ => e.message

/-! ## Named causes -/

def malformedBase64 : ChatError := decoding "Malformed base64 payload"

def lineTooLong : ChatError := transport "Line exceeds maximum length"
def unreadableLine : ChatError := io "Unable to decode input as UTF8"
def brokenPipe : ChatError := io "broken pipe"

/-- What was received should be text and is not. -/
def notText : ChatError := decoding "Payload is not valid UTF-8"

/-- What should be sent as a line is not text. -/
def unsendableBytes : ChatError := invalidPayload "Payload is not valid UTF-8"

def unsendableBreak : ChatError := invalidPayload "Payload contains a line break"
def sealFailed : ChatError := decoding "Asymmetric encryption failed"
def openFailed : ChatError := decoding "Asymmetric decryption failed"
def sealedTooShort : ChatError := decoding "Asymmetric ciphertext too short"
def encryptionFailed : ChatError := decoding "Session encryption failed"
def decryptionFailed : ChatError := decoding "Session decryption failed"
def sequenceExhausted : ChatError := decoding "Session sequence number exhausted"
def noOppositeKey : ChatError := config "No public key configured for the remote party"
def serverKeyMissing : ChatError := handshake "Server public key not found"
def wrongState : ChatError := handshake "Handshake step invoked in the wrong state"
def wrongStage : ChatError := session "Handshake step invoked in the wrong state"
def clientChallengeMismatch : ChatError :=
  handshake "Echoed client challenge does not match the challenge sent"
def serverChallengeMismatch : ChatError :=
  handshake "Returned server challenge does not match the challenge sent"
def unknownPrincipal (name : String) : ChatError :=
  handshake ("No public key on file for principal '" ++ name ++ "'")
def malformedMessage (detail : String) : ChatError :=
  handshake ("Malformed handshake message: " ++ detail)

/-- What somebody is told who is logged in already. -/
def alreadyLoggedInText : String := "Already logged in."

def alreadyLoggedIn : ChatError := session alreadyLoggedInText

def notLoggedIn : ChatError := session "Not logged in."
def entropyExhausted : ChatError :=
  cryptoUnavailable "Operating system RNG unavailable: entropy source exhausted"

end ChatError

/-- The answer of an operation that can fail. -/
abbrev Outcome (α : Type) := Except ChatError α

namespace Outcome

variable {ε α β : Type}

theorem bind_eq_ok_iff {x : Except ε α} {f : α → Except ε β} {b : β} :
    x >>= f = .ok b ↔ ∃ a, x = .ok a ∧ f a = .ok b := by
  cases x <;> simp [bind, Except.bind]

theorem map_eq_ok_iff {x : Except ε α} {f : α → β} {b : β} :
    f <$> x = .ok b ↔ ∃ a, x = .ok a ∧ f a = b := by
  cases x <;> simp [Functor.map, Except.map]

end Outcome

end SealedChat
