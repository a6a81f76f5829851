import SealedChat.Text.Words
import SealedChat.Verified

/-!
# Private messages

Two users who share an integrity key talk without a server, in the clear. The receiver acknowledges
an authentic message and echoes one that was tampered with, and the sender reads from the reply
whether its message and the reply itself came through unchanged.
-/

namespace SealedChat.PrivateMessage

def command : String := "!msg"

def ackMark : String := "!ack"

def tamperedMark : String := "!tampered"

/-- The line that carries `text` from `sender`. -/
def compose (sender text : String) : String := command ++ " " ++ sender ++ ": " ++ text

def ack (receiver : String) : String := receiver ++ " replied with " ++ ackMark ++ "."

/-- The reply to a tampered message: what was received, without the command. -/
def tampered (received : String) : String :=
  let echo := match Words.after? command.toList received.toList with
    | some rest => (Words.after? [' '] rest).getD rest
    | none => received.toList
  tamperedMark ++ " " ++ String.ofList echo

/-- What the receiver replies. -/
def replyFor (receiver : String) : Verified → String
  | .authentic _ => ack receiver
  | .tampered body => tampered (Utf8.decodeLossy body)

/-- A message as the receiver finds it in the inbox. -/
structure Incoming where
  text : String
  authentic : Bool
deriving DecidableEq, Repr

def Incoming.ofVerified (v : Verified) : Incoming := ⟨v.text, v.isAuthentic⟩

/-- What the sender knows after the reply. -/
structure Report where
  peer : String
  reply : String
  forwardTampered : Bool
  replyTampered : Bool
deriving DecidableEq, Repr

namespace Report

def ofReply (peer : String) (v : Verified) : Report where
  peer
  reply := v.text
  forwardTampered := (Words.after? tamperedMark.toList v.text.toList).isSome
  replyTampered := !v.isAuthentic

/-- Neither the message nor the reply was changed on the way. -/
def isClean (r : Report) : Bool := !r.forwardTampered && !r.replyTampered

def describe (r : Report) : String :=
  (if r.forwardTampered then "The message sent to " ++ r.peer ++ " has been tampered!"
    else r.reply) ++
  (if r.replyTampered then
    "\nThe confirmation message received from " ++ r.peer ++ " has been changed!"
    else "")

end Report

end SealedChat.PrivateMessage
