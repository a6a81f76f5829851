import SealedChat.Handshake.Message

/-!
# The initiator of a handshake

The initiator sends a challenge once, and believes a reply once: the first that echoes the
challenge. Every refused step ends the handshake.
-/

namespace SealedChat.Handshake

/-- How far a handshake has come, for either side. -/
inductive Progress where
  | init
  | challengeSent
  | awaitingConfirmation
  | established
  | failed
deriving DecidableEq, Repr

def Progress.name : Progress → String
  | init => "Init"
  | challengeSent => "ChallengeSent"
  | awaitingConfirmation => "AwaitingConfirmation"
  | established => "Established"
  | failed => "Failed"

namespace Initiator

inductive Phase where
  | init
  | challengeSent (challenge : Challenge)
  | established
  | failed
deriving DecidableEq

end Initiator

structure Initiator where
  identity : String
  phase : Initiator.Phase
deriving DecidableEq

namespace Initiator

/-- An initiator that will log in as `identity`. -/
def new (identity : String) : Outcome Initiator := do
  Principal.check identity
  return ⟨identity, .init⟩

def progress (i : Initiator) : Progress :=
  match i.phase with
  | .init => .init
  | .challengeSent _ => .challengeSent
  | .established => .established
  | .failed => .failed

/-- The first message, with a given challenge. -/
def startWith (i : Initiator) (challenge : Challenge) : Outcome Message × Initiator :=
  match i.phase with
  | .init => (.ok (.authenticate i.identity challenge), { i with phase := .challengeSent challenge })
  | _ => (.error .wrongState, { i with phase := .failed })

/-- The first message. The challenge is drawn before anything is checked, and a failed draw changes
nothing. -/
def start (i : Initiator) : Draw (Outcome Message × Initiator) := do
  match ← Challenge.fresh.run with
  | .ok challenge => return i.startWith challenge
  | .error e => return (.error e, i)

/-- The secrets and the last message, if `text` answers the challenge that was sent. -/
def verifyReply (i : Initiator) (text : String) : Outcome (Secrets × Message) := do
  match i.phase with
  | .challengeSent sent =>
    let (ca, cb, secrets) ← Message.parseAccept text
    if ca = sent then return (secrets, .confirm cb) else throw .clientChallengeMismatch
  | _ => throw .wrongState

def onReply (i : Initiator) (text : String) : Outcome (Secrets × Message) × Initiator :=
  let result := i.verifyReply text
  (result, { i with phase := if result.isOk then .established else .failed })

end Initiator

end SealedChat.Handshake
