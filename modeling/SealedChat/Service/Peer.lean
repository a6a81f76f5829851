import SealedChat.Channel
import SealedChat.PrivateMessage

/-!
# Private exchanges

One message and one reply over an integrity layer, from either side.
-/

namespace SealedChat.Peer

open PrivateMessage

variable [CipherSuite]

/-- Sends a text and waits for the reply. `inner` is what lies below the integrity layer. -/
def deliver (key : IntegrityKey) (inner : Channel) (sender peer text : String) (limit : Duration) :
    Dialogue (Outcome Report × Channel) := do
  match ← inner.send (Tagged.line key (Utf8.encode (compose sender text))) with
  | (.error e, inner) => return (.error e, inner)
  | (.ok (), inner) =>
    let (o, inner) ← Channel.receiveVerified key (some limit) inner
    return (o.map (Report.ofReply peer), inner)

/-- Waits for a message and replies to it, whether it is genuine or not. -/
def answer (key : IntegrityKey) (inner : Channel) (receiver : String) (limit : Option Duration) :
    Dialogue (Outcome Incoming × Channel) := do
  match ← Channel.receiveVerified key limit inner with
  | (.error e, inner) => return (.error e, inner)
  | (.ok verified, inner) =>
    let (o, inner) ← inner.send (Tagged.line key (Utf8.encode (replyFor receiver verified)))
    return (o.map fun _ => Incoming.ofVerified verified, inner)

end SealedChat.Peer
