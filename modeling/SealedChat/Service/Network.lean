import SealedChat.Error

/-!
# Networks

A network says whether an address can be reached, and whether one can be offered for others to
reach. What then travels between the two ends is the matter of their dialogues.
-/

namespace SealedChat

structure Network where
  reach : (address : String) → Outcome Unit
  offer : (address : String) → Outcome Unit

namespace ChatError

def unreachable : ChatError := transport "Failed to connect"
def unavailable : ChatError := transport "Failed to bind"

end ChatError

/-- A network without any working address. -/
def Network.down : Network where
  reach _ := .error .unreachable
  offer _ := .error .unavailable

end SealedChat
