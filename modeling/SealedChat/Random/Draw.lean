import SealedChat.Bytes
import SealedChat.Error

/-!
# Drawing random bytes

A `Draw α` is a computation that asks for random bytes: a finite tree whose branches are the
possible answers, a block of the requested length or a refusal. Nothing is said about where the
bytes come from, so a statement about all answers is one about every source. `Draw.run` answers the
requests from a `RandomStream`.
-/

namespace SealedChat

inductive Draw (α : Type) where
  | done (result : α)
  | fill (count : Nat) (next : Option (Block count) → Draw α)

namespace Draw

variable {α β : Type}

protected def bind : Draw α → (α → Draw β) → Draw β
  | done a, f => f a
  | fill n next, f => fill n fun answer => (next answer).bind f

instance : Monad Draw where
  pure := done
  bind := Draw.bind

/-! ## Courses of answers -/

/-- A request and its answer. -/
structure Answer where
  count : Nat
  block : Option (Block count)

/-- The drawing ends with this result when its requests are answered like this. -/
inductive Runs : Draw α → List Answer → α → Prop where
  | done (a : α) : Runs (done a) [] a
  | fill {n : Nat} {next : Option (Block n) → Draw α} (o : Option (Block n)) {answers : List Answer}
      {a : α} : Runs (next o) answers a → Runs (fill n next) (⟨n, o⟩ :: answers) a

variable {n : Nat} {next : Option (Block n) → Draw α} {answers : List Answer} {a b : α}

theorem runs_done_iff : (done b).Runs answers a ↔ answers = [] ∧ a = b := by
  constructor
  · rintro ⟨⟩
    exact ⟨rfl, rfl⟩
  · rintro ⟨rfl, rfl⟩
    exact .done a

theorem runs_fill_iff :
    (fill n next).Runs answers a ↔ ∃ o rest, answers = ⟨n, o⟩ :: rest ∧ (next o).Runs rest a := by
  constructor
  · rintro (_ | ⟨o, h⟩)
    exact ⟨o, _, rfl, h⟩
  · rintro ⟨o, rest, rfl, h⟩
    exact .fill o h

end Draw

/-- A computation that draws random bytes and can fail. -/
abbrev Drawing (α : Type) := ExceptT ChatError Draw α

/-- A fresh block of `n` bytes. -/
def draw (n : Nat) : Drawing (Block n) :=
  Draw.fill n fun
    | some b => .done (.ok b)
    | none => .done (.error .entropyExhausted)

/-- Checks that random bytes are to be had, by drawing sixteen. -/
def probe : Drawing Unit := do
  let _ ← draw 16

/-! ## Sources -/

/-- A stream of random bytes, produced by a linear congruence modulo 2⁶⁴, that may be limited to a
number of bytes. -/
structure RandomStream where
  state : UInt64
  left : Option Nat

namespace RandomStream

/-- One step of the congruence. -/
def advance (s : UInt64) : UInt64 := s * 6364136223846793005 + 1442695040888963407

/-- The next `n` bytes, each the top byte of a state, and the state after them. -/
def produce : (n : Nat) → UInt64 → Bytes × UInt64
  | 0, s => ([], s)
  | n + 1, s =>
    let s := advance s
    let r := produce n s
    ((s >>> 56).toUInt8 :: r.1, r.2)

theorem length_produce (n : Nat) (s : UInt64) : (produce n s).1.length = n := by
  induction n generalizing s with
  | zero => rfl
  | succ n ih => simp [produce, ih]

/-- A block of `n` bytes; when fewer are left nothing is used up. -/
def fill (r : RandomStream) (n : Nat) : Option (Block n) × RandomStream :=
  if r.left.all (n ≤ ·) then
    (some ⟨(produce n r.state).1, length_produce n r.state⟩,
      ⟨(produce n r.state).2, r.left.map (· - n)⟩)
  else (none, r)

end RandomStream

/-- Answers every request from a stream. -/
def Draw.run {α : Type} : Draw α → RandomStream → α × RandomStream
  | done a, r => (a, r)
  | fill n next, r => (next (r.fill n).1).run (r.fill n).2

end SealedChat
