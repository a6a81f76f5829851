import SealedChat.Error
import SealedChat.Text.Utf8

/-!
# Reading lines

Bytes arrive in pieces of any size, and a line is complete with its line feed. A reader keeps what
has arrived and not been read. A line may have at most `limit` bytes in front of its line feed, and
is refused as soon as more are there without one; the rest of it is then passed over. A refusal is
followed by one answer that says the input is over, and lines that wait behind it are looked at
again when more has been read.

One read takes no more than there is room for, so the room decides which lines are still unread
after a refusal. It is counted here: what is read makes room in front, which is used when there is
none behind.
-/

namespace SealedChat

structure LineReader where
  limit : Nat
  /-- What has been read and not been answered with. -/
  buffer : Bytes
  /-- The room in front of the buffer. -/
  front : Nat
  /-- The room behind the buffer. -/
  room : Nat
  /-- The buffer may hold a line that has not been looked for. -/
  readable : Bool
  /-- The last look at the input found its end. -/
  ended : Bool
  /-- The last answer was a refusal. -/
  refused : Bool
  /-- The rest of a line that was too long is still to be passed over. -/
  discarding : Bool
deriving DecidableEq

namespace LineReader

def lineFeed : UInt8 := 10

def carriageReturn : UInt8 := 13

/-- The room that a reader starts with. -/
def initialRoom : Nat := 8192

def new (limit : Nat) : LineReader := ⟨limit, [], 0, initialRoom, false, false, false, false⟩

/-! ## Room -/

/-- The reader after the first `n` bytes of its buffer, which leave their room in front. -/
def advance (r : LineReader) (n : Nat) : LineReader :=
  { r with buffer := r.buffer.drop n, front := r.front + n }

/-- The reader with room behind. If it has none, the buffer moves to the front, where that frees as
much room as the buffer takes; otherwise the whole is doubled. -/
def makeRoom (r : LineReader) : LineReader :=
  if 0 < r.room then r
  else if max 1 r.buffer.length ≤ r.front then { r with front := 0, room := r.front }
  else { r with room := r.front + r.buffer.length }

@[simp] theorem buffer_makeRoom (r : LineReader) : r.makeRoom.buffer = r.buffer := by
  unfold makeRoom
  split
  · rfl
  · split <;> rfl

/-! ## Lines -/

/-- A line without the carriage return that may end it. -/
def chomp (line : Bytes) : Bytes :=
  if line.getLast? = some carriageReturn then line.dropLast else line

/-- A finished line, which must be text. -/
def checked (line : Bytes) : Outcome Bytes :=
  if Utf8.isValid (chomp line) then .ok (chomp line) else .error .unreadableLine

/-- What is in front of the first line feed, and what is behind it. -/
def splitLine? : Bytes → Option (Bytes × Bytes)
  | [] => none
  | b :: r => if b = lineFeed then some ([], r) else (splitLine? r).map fun p => (b :: p.1, p.2)

/-- The reader after passing over what is left of a line that was too long. -/
def pass (r : LineReader) : LineReader :=
  if r.discarding then
    match splitLine? r.buffer with
    | some (line, _) => { r.advance (line.length + 1) with discarding := false }
    | none => r.advance r.buffer.length
  else r

/-- Takes the next complete line from the buffer, if one is there or the limit is passed. -/
def takeLine (r : LineReader) : Option (Outcome Bytes) × LineReader :=
  let r := r.pass
  if r.discarding then (none, r)
  else
    match splitLine? (r.buffer.take (r.limit + 1)) with
    | some (line, _) => (some (checked line), r.advance (line.length + 1))
    | none =>
      if r.limit < r.buffer.length then (some (.error .lineTooLong), { r with discarding := true })
      else (none, r)

/-- Takes the last line, which no line feed ends, when the input is over. -/
def takeRest (r : LineReader) : Option (Outcome Bytes) × LineReader :=
  if r.buffer = [] ∨ r.buffer = [carriageReturn] then (none, r)
  else (some (checked r.buffer), r.advance r.buffer.length)

/-! ## Answers -/

/-- What the buffer answers before more is asked of the input. -/
inductive Look where
  /-- A line or a refusal. -/
  | answer (result : Outcome Bytes)
  /-- The input is over. -/
  | ended
  /-- More bytes are needed. -/
  | more

def answered (result : Outcome Bytes) (r : LineReader) : Look × LineReader :=
  (.answer result, { r with refused := !result.isOk })

def look (r : LineReader) : Look × LineReader :=
  if r.refused then (.ended, { r with refused := false, readable := false })
  else if r.readable then
    match r.takeLine with
    | (some result, r) => answered result r
    | (none, r) =>
      if r.ended then
        match r.takeRest with
        | (some result, r) => answered result r
        | (none, r) => (.ended, { r with readable := false })
      else (.more, { r with readable := false })
  else (.more, r)

/-- Reads as much of what has arrived as there is room for, which is a byte at least. What is left
comes first. -/
def read (r : LineReader) (arrived : Bytes) : Bytes × LineReader :=
  let r := r.makeRoom
  let part := arrived.take (max 1 r.room)
  (arrived.drop (max 1 r.room),
    { r with
      buffer := r.buffer ++ part
      room := r.room - part.length
      ended := false
      readable := true })

/-- Reading loses nothing. -/
theorem buffer_read_append (r : LineReader) (arrived : Bytes) :
    (r.read arrived).2.buffer ++ (r.read arrived).1 = r.buffer ++ arrived := by
  simp [read]

theorem length_read_lt (r : LineReader) {arrived : Bytes} (h : arrived ≠ []) :
    (r.read arrived).1.length < arrived.length := by
  have := List.length_pos_iff.2 h
  simp only [read, List.length_drop]
  omega

/-- The answer at the end of the input, which is looked at twice before it is believed. -/
def finish (r : LineReader) : Look × LineReader :=
  if r.ended then (.ended, r) else look { r with ended := true, readable := true }

/-- The next answer, from what is buffered, what has arrived since, and whether the input is over;
`none` as long as there is nothing to say. What has not been read of the arrived bytes comes
second. -/
def poll (r : LineReader) (arrived : Bytes) (finished : Bool) :
    Option (Outcome Bytes) × Bytes × LineReader :=
  match r.look with
  | (.answer result, r) => (some result, arrived, r)
  | (.ended, r) => (some (.error .connectionClosed), arrived, r)
  | (.more, r) =>
    if arrived = [] then
      if finished then
        match r.finish with
        | (.answer result, r) => (some result, [], r)
        | (_, r) => (some (.error .connectionClosed), [], r)
      else (none, [], r)
    else (r.read arrived).2.poll (r.read arrived).1 finished
termination_by arrived.length
decreasing_by exact r.length_read_lt ‹_›

end LineReader

end SealedChat
