import SealedChat.Channel
import SealedChat.Handshake.Responder
import SealedChat.Keys.Store

/-!
# Logging in over a channel

Both sides of a handshake, run over an asymmetric layer. On success the layer is replaced by a
symmetric one under the new secrets; on any failure the line is closed, and nothing of the channel
is left.
-/

namespace SealedChat.Handshake

/-- A channel after a handshake: session encryption over what was below the asymmetric layer. -/
structure Secured where
  cipher : SessionCipher
  inner : Channel
  identity : String

namespace Secured

def channel (s : Secured) : Channel := .symmetric s.cipher :: s.inner

def secrets (s : Secured) : Secrets := s.cipher.secrets

end Secured

/-- A server that hangs up on a challenge has rejected it. -/
def rejected : ChatError → ChatError
  | .connectionClosed =>
    .handshake ("Server closed the connection instead of answering the challenge (" ++
      ChatError.connectionClosed.message ++ ")")
  | .io detail =>
    .handshake ("Server closed the connection instead of answering the challenge (" ++
      (ChatError.io detail).message ++ ")")
  | e => e

variable [CipherSuite]

/-- Sends the last message of a handshake, as the first of the session. -/
def confirmOver (secrets : Secrets) (inner : Channel) (confirm : Message) (identity : String) :
    Exchange Secured := do
  match ← Channel.say (.symmetric (.new secrets .initiator) :: inner) confirm.encode with
  | .symmetric cipher :: inner => return ⟨cipher, inner, identity⟩
  | _ => throw .wrongState

/-- Logs in as `identity` to the holder of the opposite key. -/
def initiate (keys : SealingKeys) (inner : Channel) (identity : String) (limit : Duration) :
    Dialogue (Outcome Secured) := Exchange.orClose do
  if keys.opposite.isNone then throw .serverKeyMissing
  let machine ← Exchange.ofOutcome (Initiator.new identity)
  let (hello, machine) ← Exchange.ofDraw machine.start
  let hello ← Exchange.ofOutcome hello
  let chain ← Channel.say (.asymmetric keys :: inner) hello.encode
  let (reply, chain) ← ExceptT.adapt rejected (chain.hear (some limit))
  let (secrets, confirm) ← Exchange.ofOutcome (machine.onReply reply).1
  confirmOver secrets chain.tail confirm identity

/-- Waits for the last message of a handshake, as the first of the session. -/
def awaitConfirmation (machine : Responder) (secrets : Secrets) (inner : Channel)
    (limit : Duration) : Exchange Secured := do
  let (text, channel) ← Channel.hear (.symmetric (.new secrets .responder) :: inner) (some limit)
  let identity ← Exchange.ofOutcome (machine.onConfirm text).1
  match channel with
  | .symmetric cipher :: inner => return ⟨cipher, inner, identity⟩
  | _ => throw .wrongState

/-- Lets someone log in whose key is in `store`. The first message may take as long as `first`
allows, every later one as long as `limit`. -/
def respond (own : SealingKeys) (inner : Channel) (store : KeyStore) (first : Option Duration)
    (limit : Duration) : Dialogue (Outcome Secured) := Exchange.orClose do
  let (hello, chain) ← Channel.hear (.asymmetric own :: inner) first
  let (heard, machine) := Responder.new.onAuthenticate hello
  let (identity, challenge) ← Exchange.ofOutcome heard
  let key ← Exchange.ofOutcome (store.find identity)
  let (answer, machine) ← Exchange.ofDraw (machine.reply challenge)
  let (secrets, message) ← Exchange.ofOutcome answer
  let chain ← Channel.say (.asymmetric { own with opposite := some key } :: chain.tail) message.encode
  awaitConfirmation machine secrets chain.tail limit

end SealedChat.Handshake
