import SealedChat.Wire.Edit
import SealedChat.Wire.Party

/-!
# Two ends at once

Both ends carry out an action at the same time, while the lines that each writes are relayed to the
other by somebody who may edit them. Whatever can happen now happens before time passes: both ends go
as far as they get, then all lines that are under way arrive, and so on. Then the clock jumps to the
next moment at which a wait is over or a line that was held back goes on. At such a moment waits are
over before lines go on.
-/

namespace SealedChat.Wire

/-! ## Relays -/

/-- The way from one end to the other. -/
structure Relay where
  edits : List Edit
  /-- The lines that have entered, unedited. -/
  seen : List Bytes
  /-- A line that is held back, what will happen to it, and until when. -/
  held : Option (Bytes × Option Edit × Nat)
  /-- Nothing more gets through. -/
  stopped : Bool

namespace Relay

def new (edits : List Edit) : Relay := ⟨edits, [], none, false⟩

/-- Delivers lines to the far end. -/
def deliver (lines : List Bytes) (receiver : Transport) : Transport :=
  lines.foldl (fun t line => (t.arrive (line ++ [LineReader.lineFeed])).2) receiver

/-- Does to a line what the edit says. -/
def release (r : Relay) (line : Bytes) (edit : Option Edit) (receiver : Transport) :
    Relay × Transport :=
  let r := { r with held := none }
  match edit with
  | none => (r, deliver [line] receiver)
  | some e =>
    if e.cut then ({ r with stopped := true }, receiver.endInput)
    else if e.drop then (r, receiver)
    else
      let changed := e.alteration.apply line
      (r, deliver (e.before.toList ++ if e.twice then [changed, changed] else [changed]) receiver)

/-- Moves lines on until one has to wait or nothing more gets through; the rest comes second. -/
def forward (r : Relay) (now : Nat) : List Bytes → Transport → Relay × List Bytes × Transport
  | [], receiver => (r, [], receiver)
  | line :: rest, receiver =>
    if r.stopped then (r, line :: rest, receiver)
    else
      let edit := r.edits.find? (·.index = r.seen.length)
      let delay := edit.elim 0 (·.delay.nanoseconds)
      let r := { r with seen := r.seen ++ [line] }
      if delay = 0 then
        let (r, receiver) := r.release line edit receiver
        r.forward now rest receiver
      else ({ r with held := some (line, edit, now + delay) }, rest, receiver)

/-- The sender will write nothing more. -/
def isOver (sender : Transport) : Bool := sender.closed || sender.broken

/-- Something can be moved on now. -/
def isReady (r : Relay) (now : Nat) (sender : Transport) : Bool :=
  !r.stopped &&
    match r.held with
    | some (_, _, due) => due ≤ now
    | none => !sender.written.isEmpty || isOver sender

/-- Moves on all lines that can be moved now, and the end of the lines behind the last. -/
def advance (r : Relay) (now : Nat) (sender receiver : Transport) :
    Relay × Transport × Transport :=
  if r.isReady now sender then
    let (r, receiver) :=
      match r.held with
      | some (line, edit, _) => r.release line edit receiver
      | none => (r, receiver)
    let (r, written, receiver) := r.forward now sender.written receiver
    let sender := { sender with written }
    if r.held.isNone && !r.stopped && isOver sender then
      ({ r with stopped := true }, sender.seekEnd, receiver.endInput)
    else (r, sender, receiver)
  else (r, sender, receiver)

/-- When a line that is held back goes on. -/
def nextTime (r : Relay) : Option Nat := r.held.map fun (_, _, due) => due

end Relay

/-! ## Actors -/

/-- An end in the middle of its action. -/
structure Actor where
  dialogue : Dialogue (Option Reply × Party)
  station : Station
  /-- When the present wait is over, unless the action is called off before. -/
  deadline : Nat
  /-- The action was called off. -/
  calledOff : Bool

namespace Actor

/-- The actor with another transport. -/
def withTransport (a : Actor) (transport : Transport) : Actor :=
  { a with station := { a.station with transport } }

def isWaiting (a : Actor) : Bool :=
  match a.dialogue with
  | .receive _ _ => true
  | _ => false

/-- Runs on until the actor waits. -/
def proceed (a : Actor) (now horizon : Nat) : Actor :=
  match a.dialogue.advance a.station with
  | (.receive limit next, station) =>
    { a with
      dialogue := .receive limit next
      station
      deadline := limit.elim (horizon + 1) fun d => now + d.nanoseconds }
  | (dialogue, station) => { a with dialogue, station }

/-- Looks whether what the actor waits for has arrived. -/
def look (a : Actor) (now horizon : Nat) : Actor :=
  match a.dialogue with
  | .receive _ next =>
    match a.station.transport.poll with
    | (some o, transport) =>
      { a with dialogue := next o, station := { a.station with transport } }.proceed now horizon
    | (none, transport) => a.withTransport transport
  | _ => a

/-- Ends a wait whose time is over, and calls off an action at the horizon. A wait that is over just
then ends by itself. -/
def timeUp (a : Actor) (now horizon : Nat) : Actor :=
  match a.dialogue with
  | .receive _ next =>
    if min horizon a.deadline ≤ now then
      let calledOff := a.calledOff || decide (horizon < a.deadline)
      { a with dialogue := next (.error .timeout), calledOff }.proceed now horizon
    else a
  | _ => a

def nextTime (a : Actor) (horizon : Nat) : Option Nat :=
  if a.isWaiting then some (min horizon a.deadline) else none

end Actor

/-! ## The run -/

structure Run where
  a : Actor
  b : Actor
  fromA : Relay
  fromB : Relay

namespace Run

/-- Moves on all that can be moved now in either direction, if there is anything. -/
def relay (r : Run) (now : Nat) : Option Run :=
  let (ta, tb) := (r.a.station.transport, r.b.station.transport)
  if r.fromA.isReady now ta || r.fromB.isReady now tb then
    let (fromA, ta, tb) := r.fromA.advance now ta tb
    let (fromB, tb, ta) := r.fromB.advance now tb ta
    some { a := r.a.withTransport ta, b := r.b.withTransport tb, fromA, fromB }
  else none

/-- The next moment at which something happens. -/
def nextTime (r : Run) (horizon : Nat) : Option Nat :=
  [r.a.nextTime horizon, r.b.nextTime horizon, r.fromA.nextTime, r.fromB.nextTime].reduceOption.min?

def onActors (f : Actor → Actor) (r : Run) : Run := { r with a := f r.a, b := f r.b }

/-- Goes on until nothing happens any more, for at most so many rounds. -/
def finish (horizon : Nat) : (rounds : Nat) → (now : Nat) → Run → Run
  | 0, _, r => r
  | rounds + 1, now, r =>
    let r := r.onActors fun a => (a.look now horizon).timeUp now horizon
    match r.relay now with
    | some r => finish horizon rounds now r
    | none =>
      match r.nextTime horizon with
      | some t => finish horizon rounds (max now t) r
      | none => r

end Run

/-- More rounds than any two actions take. -/
def enoughRounds : Nat := 100000

end SealedChat.Wire

namespace SealedChat.WireEnd

open Wire

variable [CipherSuite]

/-- An end that begins an action, or none. -/
def begin (e : WireEnd) (a : Option Action) : Actor :=
  let actor (dialogue : Dialogue (Option Reply × Party)) (station : Station) : Actor :=
    { dialogue, station, deadline := 0, calledOff := false }
  match a, e.party with
  | none, p => actor (return (none, p)) e.station
  | some .cancel, p => actor (return (some .done, p)) (e.station.map Transport.cancel)
  | some .inspect, .line =>
    actor (return (some (.lineState e.station.transport.closed e.station.transport.cancelled), .line))
      e.station
  | some a, _ =>
    (actor (do let (reply, p) ← e.dialogue a; return (some reply, p)) e.station).proceed 0 patience

/-- The reply of an end that has finished its action, and what it has become. -/
def conclude (e : WireEnd) (actor : Actor) : Option Reply × WireEnd :=
  match actor.dialogue with
  | .done (reply, party) =>
    (if actor.calledOff then some .pending else reply, e.settle party actor.station)
  | _ => (some .pending, e.settle .gone actor.station)

/-- What each end replies and becomes, and the lines that each wrote. -/
structure RunResult where
  replyA : Option Reply
  replyB : Option Reply
  endA : WireEnd
  endB : WireEnd
  linesA : List Bytes
  linesB : List Bytes

/-- Both ends carry out their actions at once. -/
def runBoth (a b : WireEnd) (actionA actionB : Option Action) (editsA editsB : List Edit) :
    RunResult :=
  let start : Run := ⟨a.begin actionA, b.begin actionB, .new editsA, .new editsB⟩
  let r := start.finish patience enoughRounds 0
  let (replyA, endA) := a.conclude r.a
  let (replyB, endB) := b.conclude r.b
  { replyA, replyB, endA, endB, linesA := r.fromA.seen, linesB := r.fromB.seen }

end SealedChat.WireEnd
