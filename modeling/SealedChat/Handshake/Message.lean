import SealedChat.Keys.Material
import SealedChat.Principal
import SealedChat.Text.Words

/-!
# Handshake messages

Three messages make a handshake. The initiator says who it is and sends a challenge; the responder
returns it with a challenge of its own and the secrets of the session; the initiator returns that
challenge. The first two start with a command and have single spaces between their words; the third
is one word, and may stand between blanks.
-/

namespace SealedChat.Handshake

inductive Message where
  | authenticate (identity : String) (challenge : Challenge)
  | accept (clientChallenge serverChallenge : Challenge) (secrets : Secrets)
  | confirm (challenge : Challenge)
deriving DecidableEq

def authenticateCommand : String := "!authenticate"

def acceptCommand : String := "!ok"

namespace Message

/-- The words of a message. -/
def words : Message → List String
  | authenticate identity challenge => [authenticateCommand, identity, challenge.toBase64]
  | accept ca cb s =>
    [acceptCommand, ca.toBase64, cb.toBase64, s.key.toBase64, s.iv.toBase64]
  | confirm challenge => [challenge.toBase64]

def encode (m : Message) : String := " ".intercalate m.words

/-- The words after the command, which must be `count` words that are not empty. -/
def arguments (command : String) (count : Nat) (text : String) : Outcome (List String) :=
  match Words.ofText ' ' text with
  | [] => .error (.malformedMessage ("expected " ++ command))
  | head :: rest =>
    if head ≠ command then .error (.malformedMessage ("expected " ++ command))
    else if rest.length ≠ count ∨ rest.any (·.isEmpty) then
      .error (.malformedMessage s!"{command} takes {count} arguments")
    else .ok rest

/-- Reads an `authenticate` message: the identity is checked before the challenge. -/
def parseAuthenticate (text : String) : Outcome (String × Challenge) := do
  match ← arguments authenticateCommand 2 text with
  | [identity, challenge] =>
    Principal.check identity
    return (identity, ← Challenge.ofBase64 challenge)
  | _ => throw .wrongState

/-- Reads an `accept` message: both challenges and the secrets. -/
def parseAccept (text : String) : Outcome (Challenge × Challenge × Secrets) := do
  match ← arguments acceptCommand 4 text with
  | [ca, cb, key, iv] =>
    let ca ← Challenge.ofBase64 ca
    let cb ← Challenge.ofBase64 cb
    let key ← SessionKey.ofBase64 key
    let iv ← Iv.ofBase64 iv
    return (ca, cb, ⟨key, iv⟩)
  | _ => throw .wrongState

/-- Reads a `confirm` message, which may stand between blanks. -/
def parseConfirm (text : String) : Outcome Challenge :=
  Challenge.ofBase64 (String.ofList (Blank.trim text.toList))

end Message

end SealedChat.Handshake
