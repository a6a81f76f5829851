import SealedChat.Dialogue
import SealedChat.Keys.Integrity
import SealedChat.SealedBox
import SealedChat.SessionCipher
import SealedChat.Verified

/-!
# Channels

A channel carries byte strings over a line. It is a stack of layers, the top one first, and each
layer changes a payload on its way down and back on its way up: Base64 makes it a word, the
symmetric layer encrypts it under session secrets, the asymmetric layer seals it to the other side's
key, and the integrity layer puts a tag in front. Only the line at the bottom does anything to the
outside world, so closing a channel is closing its line.
-/

namespace SealedChat

/-- The keys of an asymmetric layer: its own, and that of the other side once it is known. -/
structure SealingKeys where
  own : PrivateKey
  opposite : Option PublicKey
deriving DecidableEq

inductive Layer where
  | base64
  | symmetric (cipher : SessionCipher)
  | asymmetric (keys : SealingKeys)
  | integrity (key : IntegrityKey)

/-- The layers over a line, the top one first. -/
abbrev Channel := List Layer

/-! ## Tagged lines -/

namespace Tagged

def space : UInt8 := 32

/-- The line that carries a payload: its tag, a space, and the payload itself. -/
def line (key : IntegrityKey) (payload : Bytes) : Bytes :=
  Base64.encodeLine (key.tag payload).bytes ++ space :: payload

/-- What is in front of the first space of a line, and what is behind it. -/
def split? : Bytes → Option (Bytes × Bytes)
  | [] => none
  | b :: r => if b = space then some ([], r) else (split? r).map fun p => (b :: p.1, p.2)

/-- The payload of a line, and whether its tag is genuine. A line without a space is all payload. -/
def verify (key : IntegrityKey) (received : Bytes) : Verified :=
  match split? received with
  | none => .tampered received
  | some (word, payload) =>
    match Base64.decode? word with
    | none => .tampered payload
    | some tag => if key.verify payload tag then .authentic payload else .tampered payload

end Tagged

namespace Channel

variable [CipherSuite]

/-- Sends a payload through the layers. A layer that has moved on stays there when one below it
fails. -/
def send : Channel → Bytes → Dialogue (Outcome Unit × Channel)
  | [], payload => do return (← Dialogue.sendLine payload, [])
  | .base64 :: inner, payload => do
    let (o, inner) ← send inner (Base64.encodeLine payload)
    return (o, .base64 :: inner)
  | .symmetric cipher :: inner, payload =>
    match cipher.encrypt payload with
    | (.ok c, cipher) => do
      let (o, inner) ← send inner c
      return (o, .symmetric cipher :: inner)
    | (.error e, cipher) => return (.error e, .symmetric cipher :: inner)
  | .asymmetric keys :: inner, payload =>
    match keys.opposite with
    | none => return (.error .noOppositeKey, .asymmetric keys :: inner)
    | some recipient => do
      match ← Dialogue.ofDraw (SealedBox.sealTo recipient payload).run with
      | .ok box =>
        let (o, inner) ← send inner box
        return (o, .asymmetric keys :: inner)
      | .error e => return (.error e, .asymmetric keys :: inner)
  | .integrity key :: inner, payload => do
    let (o, inner) ← send inner (Tagged.line key payload)
    return (o, .integrity key :: inner)

/-- Receives a payload through the layers, waiting for at most `limit`. -/
def receive (limit : Option Duration) : Channel → Dialogue (Outcome Bytes × Channel)
  | [] => do return (← Dialogue.receiveLine limit, [])
  | .base64 :: inner => do
    match ← receive limit inner with
    | (.ok word, inner) =>
      return ((Base64.decode? word).elim (.error .malformedBase64) .ok, .base64 :: inner)
    | (.error e, inner) => return (.error e, .base64 :: inner)
  | .symmetric cipher :: inner => do
    match ← receive limit inner with
    | (.ok c, inner) =>
      let (o, cipher) := cipher.decrypt c
      return (o, .symmetric cipher :: inner)
    | (.error e, inner) => return (.error e, .symmetric cipher :: inner)
  | .asymmetric keys :: inner => do
    match ← receive limit inner with
    | (.ok box, inner) => return (SealedBox.openWith keys.own box, .asymmetric keys :: inner)
    | (.error e, inner) => return (.error e, .asymmetric keys :: inner)
  | .integrity key :: inner => do
    match ← receive limit inner with
    | (.ok line, inner) =>
      match Tagged.verify key line with
      | .authentic payload => return (.ok payload, .integrity key :: inner)
      | .tampered payload =>
        return (.error (.integrityMismatch (Utf8.decodeLossy payload)), .integrity key :: inner)
    | (.error e, inner) => return (.error e, .integrity key :: inner)

/-- Receives a payload below an integrity layer, and tells whether it is genuine. -/
def receiveVerified (key : IntegrityKey) (limit : Option Duration) (inner : Channel) :
    Dialogue (Outcome Verified × Channel) := do
  let (o, inner) ← receive limit inner
  return (o.map (Tagged.verify key), inner)

/-- A received payload as text. -/
def textOf (payload : Bytes) : Outcome String :=
  match Utf8.decode? payload with
  | some s => .ok s
  | none => .error .notText

/-- Sends a text, and gives up the channel if that fails. -/
def say (c : Channel) (text : String) : Exchange Channel :=
  ExceptT.mk do
    match ← c.send (Utf8.encode text) with
    | (.ok (), c) => return .ok c
    | (.error e, _) => return .error e

/-- Receives a text, and gives up the channel if that fails. -/
def hear (c : Channel) (limit : Option Duration) : Exchange (String × Channel) :=
  ExceptT.mk do
    match ← c.receive limit with
    | (.ok payload, c) => return (textOf payload).map (·, c)
    | (.error e, _) => return .error e

end Channel

end SealedChat
