import SealedChat.Transport.Reader

/-!
# The line transport

One end of a byte stream that carries lines of text, as that end sees it: what has arrived, what it
has written, and whether either direction is over. `poll` never waits; it answers `none` while
nothing has arrived that could be answered with.

A line goes into a write buffer first. The stream takes all that is in the buffer, or nothing while it
is broken; what it does not take stays in the buffer, and goes out in front of the next line, or when
the end is closed. A stream that takes a part of a line, and one that breaks in the very moment of
being shut down, are left out.
-/

namespace SealedChat

structure Transport where
  reader : LineReader
  /-- Bytes that have arrived and have not been read. -/
  arrived : Bytes
  /-- Nothing more will arrive. -/
  ended : Bool
  /-- The stream takes no writes, because the other side is gone. -/
  broken : Bool
  /-- Lines in the write buffer, the oldest first. -/
  unwritten : List Bytes
  /-- Lines written and not yet carried away, the oldest first. -/
  written : List Bytes
  /-- This end has closed its direction. -/
  closed : Bool
  /-- Waiting has been called off. -/
  cancelled : Bool
  /-- How often this end has shut the stream down. -/
  shutdowns : Nat
  /-- The far side has come to the end of what this end writes. -/
  endSeen : Bool
deriving DecidableEq

namespace Transport

def new (limit : Nat) : Transport := ⟨.new limit, [], false, false, [], [], false, false, 0, false⟩

/-! ## Writing -/

/-- So many bytes fill the write buffer. -/
def fullBuffer : Nat := 8192

def isFull (t : Transport) : Bool :=
  decide (fullBuffer ≤ (t.unwritten.flatMap fun line => line ++ [LineReader.lineFeed]).length)

/-- The stream does not take what is in the write buffer. -/
def isStuck (t : Transport) : Bool := t.broken && !t.unwritten.isEmpty

/-- Writes what is in the write buffer. -/
def flush (t : Transport) : Outcome Unit × Transport :=
  if t.isStuck then (.error .brokenPipe, t)
  else (.ok (), { t with written := t.written ++ t.unwritten, unwritten := [] })

/-- Writes a line by way of the write buffer. A full buffer has to be written before it takes the
line. -/
def write (t : Transport) (line : Bytes) : Outcome Unit × Transport :=
  match if t.isFull then t.flush else (.ok (), t) with
  | (.ok (), t) => { t with unwritten := t.unwritten ++ [line] }.flush
  | failed => failed

/-- Sends one line: a payload that is text without line breaks. The limit binds readers only. -/
def send (t : Transport) (payload : Bytes) : Outcome Unit × Transport :=
  if t.closed then (.error .connectionClosed, t)
  else if !Utf8.isValid payload then (.error .unsendableBytes, t)
  else if payload.any fun b => b == LineReader.lineFeed || b == LineReader.carriageReturn then
    (.error .unsendableBreak, t)
  else t.write payload

/-- Writes what is left in the write buffer and shuts the stream down. A stream that does not take
what is left is not shut down, and nobody is told. Closing twice is closing once. -/
def close (t : Transport) : Transport :=
  if t.closed then t
  else
    match { t with closed := true }.flush with
    | (.ok (), t) => { t with shutdowns := t.shutdowns + 1 }
    | (.error _, t) => t

/-! ## Reading -/

/-- The next line, if one can be answered now. Whether the end is closed or called off is asked
before any data is looked at. -/
def poll (t : Transport) : Option (Outcome Bytes) × Transport :=
  if t.closed then (some (.error .connectionClosed), t)
  else if t.cancelled then (some (.error .shutdown), t)
  else
    let (result, arrived, reader) := t.reader.poll t.arrived t.ended
    (result, { t with reader, arrived })

def cancel (t : Transport) : Transport := { t with cancelled := true }

/-! ## The far side -/

/-- Bytes arrive, unless the input is over already. -/
def arrive (t : Transport) (b : Bytes) : Bool × Transport :=
  if t.ended then (false, t) else (true, { t with arrived := t.arrived ++ b })

def endInput (t : Transport) : Transport := { t with ended := true }

/-- The stream goes away in both directions. -/
def sever (t : Transport) : Transport := { t with ended := true, broken := true, written := [] }

/-- The far side looks for the end of what is written here, which only a stream that was shut down and
is still there shows. -/
def seekEnd (t : Transport) : Transport :=
  { t with endSeen := t.endSeen || decide (0 < t.shutdowns) && !t.broken }

/-- Carries the written lines away. -/
def carry (t : Transport) : List Bytes × Transport := (t.written, { t.seekEnd with written := [] })

end Transport

end SealedChat
