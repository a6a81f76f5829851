import SealedChat.Handshake.Login
import SealedChat.Proofs.Handshake.Steps

/-!
# The stages of a login

Both sides of a login, cut where one side has to wait for the other: an initiator says who it is and
then waits for a reply, and a responder waits to hear that, answers, and waits for the confirmation.
-/

namespace SealedChat.Handshake

variable [CipherSuite]

/-- What is left to do for an initiator that has said who it is. -/
def awaitReply (machine : Initiator) (chain : Channel) (identity : String) (limit : Duration) :
    Exchange Secured := do
  let (reply, chain) ← ExceptT.adapt rejected (chain.hear (some limit))
  let (secrets, confirm) ← Exchange.ofOutcome (machine.onReply reply).1
  confirmOver secrets chain.tail confirm identity

/-- What is left to do for an initiator that knows the other side's key. -/
def introduce (keys : SealingKeys) (inner : Channel) (machine : Initiator) (identity : String)
    (limit : Duration) : Exchange Secured := do
  let (hello, machine) ← Exchange.ofDraw machine.start
  let hello ← Exchange.ofOutcome hello
  let chain ← Channel.say (.asymmetric keys :: inner) hello.encode
  awaitReply machine chain identity limit

theorem initiate_eq {keys : SealingKeys} {key : PublicKey} (hk : keys.opposite = some key)
    {identity : String} (hi : Principal.IsValid identity) (inner : Channel) (limit : Duration) :
    initiate keys inner identity limit =
      (introduce keys inner ⟨identity, .init⟩ identity limit).orClose := by
  have hnew := Initiator.new_eq_ok_iff.2 ⟨hi, rfl⟩
  rw [initiate, hk, hnew]
  rfl

/-- What is left to do for a responder that knows whom to answer. -/
def answerAndWait (keys : SealingKeys) (inner : Channel) (machine : Responder) (ca : Challenge)
    (limit : Duration) : Exchange Secured := do
  let (answer, machine) ← Exchange.ofDraw (machine.reply ca)
  let (secrets, message) ← Exchange.ofOutcome answer
  let chain ← Channel.say (.asymmetric keys :: inner) message.encode
  awaitConfirmation machine secrets chain.tail limit

/-- A responder that leaves the line open when it fails. -/
def hearAndAnswer (own : SealingKeys) (inner : Channel) (store : KeyStore) (first : Option Duration)
    (limit : Duration) : Exchange Secured := do
  let (hello, chain) ← Channel.hear (.asymmetric own :: inner) first
  let (heard, machine) := Responder.new.onAuthenticate hello
  let (identity, ca) ← Exchange.ofOutcome heard
  let key ← Exchange.ofOutcome (store.find identity)
  answerAndWait { own with opposite := some key } chain.tail machine ca limit

theorem respond_eq (own : SealingKeys) (inner : Channel) (store : KeyStore)
    (first : Option Duration) (limit : Duration) :
    respond own inner store first limit =
      (hearAndAnswer own inner store first limit).orClose := rfl

end SealedChat.Handshake
