import SealedChat.Handshake.Initiator

/-!
# The responder of a handshake

The responder hears once who the other side says it is, answers once with fresh secrets, and
believes the claim when its own challenge comes back. Every refused step ends the handshake.
-/

namespace SealedChat.Handshake

namespace Responder

inductive Phase where
  | init
  | awaitingConfirmation (challenge : Challenge)
  | established
  | failed
deriving DecidableEq

end Responder

structure Responder where
  /-- What the other side says it is. -/
  declared : Option String
  phase : Responder.Phase
deriving DecidableEq

namespace Responder

def new : Responder := ⟨none, .init⟩

def progress (r : Responder) : Progress :=
  match r.phase with
  | .init => .init
  | .awaitingConfirmation _ => .awaitingConfirmation
  | .established => .established
  | .failed => .failed

/-- Hears the first message. -/
def onAuthenticate (r : Responder) (text : String) : Outcome (String × Challenge) × Responder :=
  if r.phase = .init ∧ r.declared = none then
    match Message.parseAuthenticate text with
    | .ok (identity, challenge) => (.ok (identity, challenge), { r with declared := some identity })
    | .error e => (.error e, { r with phase := .failed })
  else (.error .wrongState, { r with phase := .failed })

/-- The answer to a challenge: a challenge of its own is drawn before the secrets. -/
def reply (r : Responder) (clientChallenge : Challenge) :
    Draw (Outcome (Secrets × Message) × Responder) :=
  if r.phase = .init ∧ r.declared.isSome then do
    let drawn ← ExceptT.run do
      let challenge ← Challenge.fresh
      let secrets ← Secrets.fresh
      return (challenge, secrets)
    match drawn with
    | .ok (challenge, secrets) =>
      return (.ok (secrets, .accept clientChallenge challenge secrets),
        { r with phase := .awaitingConfirmation challenge })
    | .error e => return (.error e, { r with phase := .failed })
  else return (.error .wrongState, { r with phase := .failed })

/-- The identity, if `text` returns the challenge that was sent. -/
def verifyConfirm (r : Responder) (text : String) : Outcome String := do
  match r.phase with
  | .awaitingConfirmation expected =>
    let returned ← Message.parseConfirm text
    if returned = expected then
      match r.declared with
      | some identity => return identity
      | none => throw .wrongState
    else throw .serverChallengeMismatch
  | _ => throw .wrongState

def onConfirm (r : Responder) (text : String) : Outcome String × Responder :=
  let result := r.verifyConfirm text
  (result, { r with phase := if result.isOk then .established else .failed })

end Responder

end SealedChat.Handshake
