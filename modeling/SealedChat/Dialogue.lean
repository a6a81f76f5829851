import SealedChat.Duration
import SealedChat.Random.Draw

/-!
# Dialogues

A `Dialogue α` is what one end of a line does: it sends and receives lines, closes the line and
draws random bytes, and ends with a result. It is a finite tree, one branch for each answer that the
surroundings may give, so a dialogue can be run on a transport, interleaved with others, or followed
along every possible course of events (`Dialogue.Runs`).
-/

namespace SealedChat

inductive Dialogue (α : Type) where
  | done (result : α)
  | send (line : Bytes) (next : Outcome Unit → Dialogue α)
  /-- Waits for a line, for at most the given time. -/
  | receive (limit : Option Duration) (next : Outcome Bytes → Dialogue α)
  | close (next : Dialogue α)
  | fill (count : Nat) (next : Option (Block count) → Dialogue α)

namespace Dialogue

variable {α β : Type}

protected def bind : Dialogue α → (α → Dialogue β) → Dialogue β
  | done a, f => f a
  | send line next, f => send line fun o => (next o).bind f
  | receive limit next, f => receive limit fun o => (next o).bind f
  | close next, f => close (next.bind f)
  | fill n next, f => fill n fun o => (next o).bind f

instance : Monad Dialogue where
  pure := done
  bind := Dialogue.bind

/-! ## Single steps -/

def sendLine (line : Bytes) : Dialogue (Outcome Unit) := send line done

def receiveLine (limit : Option Duration) : Dialogue (Outcome Bytes) := receive limit done

def closeLine : Dialogue Unit := close (done ())

/-- A drawing as part of a dialogue. -/
def ofDraw : Draw α → Dialogue α
  | .done a => done a
  | .fill n next => fill n fun o => ofDraw (next o)

/-! ## Courses of events -/

/-- What happens in a dialogue, with the answer of the surroundings. -/
inductive Event where
  | sent (line : Bytes) (answer : Outcome Unit)
  | received (limit : Option Duration) (answer : Outcome Bytes)
  | closed
  | filled (count : Nat) (answer : Option (Block count))

/-- The dialogue takes this course and ends with this result. -/
inductive Runs : Dialogue α → List Event → α → Prop where
  | done (a : α) : Runs (done a) [] a
  | send {line : Bytes} {next : Outcome Unit → Dialogue α} (o : Outcome Unit) {es : List Event}
      {a : α} : Runs (next o) es a → Runs (send line next) (.sent line o :: es) a
  | receive {limit : Option Duration} {next : Outcome Bytes → Dialogue α} (o : Outcome Bytes)
      {es : List Event} {a : α} :
      Runs (next o) es a → Runs (receive limit next) (.received limit o :: es) a
  | close {next : Dialogue α} {es : List Event} {a : α} :
      Runs next es a → Runs (close next) (.closed :: es) a
  | fill {n : Nat} {next : Option (Block n) → Dialogue α} (o : Option (Block n))
      {es : List Event} {a : α} : Runs (next o) es a → Runs (fill n next) (.filled n o :: es) a

end Dialogue

/-- A dialogue that can fail. -/
abbrev Exchange (α : Type) := ExceptT ChatError Dialogue α

namespace Exchange

variable {α : Type}

def ofOutcome (o : Outcome α) : Exchange α := ExceptT.mk (pure o)

/-- A drawing that cannot fail as a whole. -/
def ofDraw (d : Draw α) : Exchange α := ExceptT.lift (Dialogue.ofDraw d)

/-- Closes the line if the exchange fails. -/
def orClose (x : Exchange α) : Dialogue (Outcome α) := do
  match ← x.run with
  | .ok a => return .ok a
  | .error e =>
    Dialogue.closeLine
    return .error e

end Exchange

end SealedChat
