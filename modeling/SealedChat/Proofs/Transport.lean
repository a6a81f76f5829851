import Mathlib.Tactic.SplitIfs
import SealedChat.Transport

/-!
# Lines and bytes

A transport writes lines and reads bytes. A line that it sends is refused, or handed to the stream
behind the lines of the write buffer, or left in the buffer by a broken stream (`Transport.send_cases`,
`Transport.write_eq`).

Whatever the pieces in which the bytes of clean lines arrive, a reader in good order answers with the
lines, one at a time and in order, or says that it needs more bytes; it never answers with anything
else (`Transport.poll_line`, `Transport.poll_nil`).
-/

namespace SealedChat

/-- The bytes of lines on their way. -/
def frame (lines : List Bytes) : Bytes := lines.flatMap (· ++ [LineReader.lineFeed])

@[simp] theorem frame_nil : frame [] = [] := rfl

theorem frame_cons (line : Bytes) (lines : List Bytes) :
    frame (line :: lines) = line ++ LineReader.lineFeed :: frame lines := by
  simp [frame]

theorem frame_append (lines lines' : List Bytes) :
    frame (lines ++ lines') = frame lines ++ frame lines' := by simp [frame]

/-- A payload that can be sent as a line. -/
structure IsSendable (payload : Bytes) : Prop where
  isValid : Utf8.isValid payload
  not_mem : LineReader.lineFeed ∉ payload ∧ LineReader.carriageReturn ∉ payload

/-- A line that every transport writes, and that a reader with this limit reads. -/
structure IsClean (limit : Nat) (line : Bytes) : Prop extends IsSendable line where
  length_le : line.length ≤ limit

/-- What has arrived of a line is a part of it, or the whole line and what follows. -/
theorem arrived_cases {a b line rest : Bytes} {x : UInt8} (h : a ++ b = line ++ x :: rest) :
    (∃ tail, line = a ++ tail ∧ b = tail ++ x :: rest) ∨
      ∃ tail, a = line ++ x :: tail ∧ rest = tail ++ b := by
  rcases List.append_eq_append_iff.1 h with ⟨tail, hl, hb⟩ | ⟨tail, ha, hr⟩
  · exact .inl ⟨tail, hl, hb⟩
  · cases tail with
    | nil => exact .inl ⟨[], by simpa using ha.symm, hr.symm⟩
    | cons y tail =>
      rw [List.cons_append, List.cons.injEq] at hr
      exact .inr ⟨tail, hr.1 ▸ ha, hr.2⟩

/-! ## Readers -/

namespace LineReader

theorem splitLine?_of_not_mem {b : Bytes} (h : lineFeed ∉ b) : splitLine? b = none := by
  induction b with
  | nil => rfl
  | cons x b ih =>
    rw [List.mem_cons, not_or] at h
    rw [splitLine?, if_neg (Ne.symm h.1), ih h.2]
    rfl

theorem splitLine?_append {line : Bytes} (h : lineFeed ∉ line) (rest : Bytes) :
    splitLine? (line ++ lineFeed :: rest) = some (line, rest) := by
  induction line with
  | nil => rfl
  | cons x line ih =>
    rw [List.mem_cons, not_or] at h
    rw [List.cons_append, splitLine?, if_neg (Ne.symm h.1), ih h.2]
    rfl

theorem checked_of_isClean {limit : Nat} {line : Bytes} (h : IsClean limit line) :
    checked line = .ok line := by
  have hc : chomp line = line := by
    rw [chomp, if_neg]
    intro hl
    exact h.not_mem.2 (List.mem_of_getLast? hl)
  rw [checked, hc, if_pos h.isValid]

/-- Nothing has gone wrong, and there is no line that has not been looked for. -/
structure Steady (r : LineReader) : Prop where
  ended : r.ended = false
  refused : r.refused = false
  discarding : r.discarding = false
  readable : r.readable = false → lineFeed ∉ r.buffer

variable {r : LineReader} {line rest arrived : Bytes}

theorem steady_new (limit : Nat) : (new limit).Steady := ⟨rfl, rfl, rfl, fun _ => by simp [new]⟩

theorem takeLine_of_line (hr : r.Steady) (hl : IsClean r.limit line)
    (hb : r.buffer = line ++ lineFeed :: rest) :
    r.takeLine = (some (.ok line), r.advance (line.length + 1)) := by
  have hpass : r.pass = r := by rw [pass, hr.discarding]; rfl
  have htake : r.buffer.take (r.limit + 1) =
      line ++ lineFeed :: rest.take (r.limit - line.length) := by
    rw [hb, List.take_append, List.take_of_length_le (Nat.le_succ_of_le hl.length_le),
      show r.limit + 1 - line.length = r.limit - line.length + 1 by
        have := hl.length_le
        omega, List.take_succ_cons]
  simp only [takeLine, hpass, hr.discarding, htake, splitLine?_append hl.not_mem.1,
    checked_of_isClean hl]
  rfl

theorem takeLine_of_not_mem (hr : r.Steady) (hb : lineFeed ∉ r.buffer)
    (hl : r.buffer.length ≤ r.limit) : r.takeLine = (none, r) := by
  have hpass : r.pass = r := by rw [pass, hr.discarding]; rfl
  have htake : r.buffer.take (r.limit + 1) = r.buffer := List.take_of_length_le (by omega)
  simp only [takeLine, hpass, hr.discarding, htake, splitLine?_of_not_mem hb]
  rw [if_neg (by decide), if_neg (by omega)]

/-- A reader that has the line answers with it. -/
theorem look_of_line (hr : r.Steady) (hl : IsClean r.limit line)
    (hb : r.buffer = line ++ lineFeed :: rest) :
    r.look = (.answer (.ok line), { r.advance (line.length + 1) with refused := false }) := by
  cases h : r.readable with
  | false => exact absurd (by simp [hb]) (hr.readable h)
  | true =>
    simp only [look, hr.refused, h, takeLine_of_line hr hl hb]
    rfl

/-- A reader that has no whole line asks for more. -/
theorem look_of_not_mem (hr : r.Steady) (hb : lineFeed ∉ r.buffer)
    (hl : r.buffer.length ≤ r.limit) : r.look = (.more, { r with readable := false }) := by
  cases h : r.readable with
  | false =>
    have hrefused := hr.refused
    cases r
    simp_all [look]
  | true =>
    simp only [look, hr.refused, h, takeLine_of_not_mem hr hb hl, hr.ended]
    rfl

theorem Steady.read (hr : r.Steady) (arrived : Bytes) : (r.read arrived).2.Steady where
  ended := rfl
  refused := by
    simp only [LineReader.read, makeRoom]
    split_ifs <;> exact hr.refused
  discarding := by
    simp only [LineReader.read, makeRoom]
    split_ifs <;> exact hr.discarding
  readable h := by cases h

theorem limit_read (r : LineReader) (arrived : Bytes) : (r.read arrived).2.limit = r.limit := by
  simp only [LineReader.read, makeRoom]
  split_ifs <;> rfl

/-- All that has arrived is passed on to the reader, and none of it makes a whole line. -/
theorem poll_of_not_mem (hr : r.Steady) (hm : lineFeed ∉ r.buffer ++ arrived)
    (hl : (r.buffer ++ arrived).length ≤ r.limit) :
    ∃ r', r.poll arrived false = (none, [], r') ∧ r'.Steady ∧ r'.limit = r.limit ∧
      r'.buffer = r.buffer ++ arrived := by
  induction hn : arrived.length using Nat.strongRecOn generalizing r arrived with
  | ind n ih =>
    rw [List.mem_append, not_or] at hm
    rw [List.length_append] at hl
    have hlook := look_of_not_mem hr hm.1 (by omega)
    rw [poll, hlook]
    dsimp only
    have hr' : ({ r with readable := false } : LineReader).Steady :=
      ⟨hr.ended, hr.refused, hr.discarding, fun _ => hm.1⟩
    by_cases ha : arrived = []
    · subst ha
      exact ⟨_, rfl, hr', rfl, (List.append_nil _).symm⟩
    · rw [if_neg ha]
      have hb := buffer_read_append { r with readable := false } arrived
      obtain ⟨r', hp, hs, hlim, hbuf⟩ := ih _ (hn ▸ length_read_lt _ ha) (hr'.read arrived)
        (by rw [hb, List.mem_append, not_or]; exact hm)
        (by rw [hb, List.length_append, limit_read]; exact hl) rfl
      exact ⟨r', hp, hs, hlim.trans (limit_read _ _), hbuf.trans hb⟩

/-- However the bytes of a line have arrived, the line is the answer, also when nothing follows. -/
theorem poll_of_line (finished : Bool) (hr : r.Steady) (hl : IsClean r.limit line)
    (hb : r.buffer ++ arrived = line ++ lineFeed :: rest) :
    ∃ arrived' r', r.poll arrived finished = (some (.ok line), arrived', r') ∧ r'.Steady ∧
      r'.limit = r.limit ∧ r'.buffer ++ arrived' = rest := by
  induction hn : arrived.length using Nat.strongRecOn generalizing r arrived with
  | ind n ih =>
    rcases arrived_cases hb with ⟨tail, ht, ha⟩ | ⟨tail, ht, hrest⟩
    · -- the buffer is a part of the line, and more is read
      have hm : lineFeed ∉ r.buffer := fun hm => hl.not_mem.1 (ht ▸ List.mem_append_left _ hm)
      have hlen : r.buffer.length ≤ line.length := by
        rw [ht, List.length_append]
        exact Nat.le_add_right ..
      have hr' : ({ r with readable := false } : LineReader).Steady :=
        ⟨hr.ended, hr.refused, hr.discarding, fun _ => hm⟩
      have hne : arrived ≠ [] := by simp [ha]
      rw [poll, look_of_not_mem hr hm (Nat.le_trans hlen hl.length_le)]
      dsimp only
      rw [if_neg hne]
      obtain ⟨arrived', r', hp, hs, hlim, hbuf⟩ := ih _ (hn ▸ length_read_lt _ hne)
        (hr'.read arrived) (by rw [limit_read]; exact hl) (by rw [buffer_read_append]; exact hb) rfl
      exact ⟨arrived', r', hp, hs, hlim.trans (limit_read _ _), hbuf⟩
    · -- the line is in the buffer
      have hreadable : r.readable = true := by
        rw [← Bool.not_eq_false]
        exact fun h => hr.readable h (by simp [ht])
      have hdrop : r.buffer.drop (line.length + 1) = tail := by
        rw [ht, List.append_cons]
        exact List.drop_left' (by simp)
      refine ⟨arrived, { r.advance (line.length + 1) with refused := false }, ?_,
        ⟨hr.ended, rfl, hr.discarding, fun h => ?_⟩, rfl, ?_⟩
      · rw [poll, look_of_line hr hl ht]
      · rw [show r.readable = false from h] at hreadable
        cases hreadable
      · exact (congrArg (· ++ arrived) hdrop).trans hrest.symm

end LineReader

/-! ## Transports -/

namespace Transport

/-- Both directions are open, nobody has called off anything, and the reader is in good order. -/
structure IsOpen (t : Transport) : Prop where
  closed : t.closed = false
  cancelled : t.cancelled = false
  ended : t.ended = false
  broken : t.broken = false
  reader : t.reader.Steady

/-- What has arrived and has not been answered with. -/
def unread (t : Transport) : Bytes := t.reader.buffer ++ t.arrived

def limit (t : Transport) : Nat := t.reader.limit

theorem isOpen_new (limit : Nat) : (new limit).IsOpen :=
  ⟨rfl, rfl, rfl, rfl, LineReader.steady_new limit⟩

variable {t : Transport} {line : Bytes} {lines : List Bytes} {rest : Bytes}

/-! ### Writing -/

/-- These say that a line was refused, and has not come as far as the write buffer. -/
def IsRefusal (e : ChatError) : Prop :=
  e = .connectionClosed ∨ e = .unsendableBytes ∨ e = .unsendableBreak

theorem any_break_iff {payload : Bytes} :
    (payload.any fun b => b == LineReader.lineFeed || b == LineReader.carriageReturn) = true ↔
      LineReader.lineFeed ∈ payload ∨ LineReader.carriageReturn ∈ payload := by
  rw [List.any_eq_true]
  constructor
  · rintro ⟨b, hm, hb⟩
    rw [Bool.or_eq_true, beq_iff_eq, beq_iff_eq] at hb
    rcases hb with rfl | rfl
    · exact .inl hm
    · exact .inr hm
  · rintro (hm | hm)
    · exact ⟨_, hm, rfl⟩
    · exact ⟨_, hm, rfl⟩

theorem flush_of_stuck (h : t.isStuck = true) : t.flush = (.error .brokenPipe, t) := if_pos h

theorem flush_of_not_stuck (h : t.isStuck = false) :
    t.flush = (.ok (), { t with written := t.written ++ t.unwritten, unwritten := [] }) :=
  if_neg (by simp [h])

theorem unwritten_ne_nil_of_isFull (h : t.isFull = true) : t.unwritten ≠ [] := by
  intro hn
  rw [isFull, hn] at h
  exact absurd h (by decide)

/-- **What becomes of a line that is written.** A stream that is not broken takes all lines of the
buffer and this one; a broken stream takes none, and the line stays in the buffer if it has found
room there. -/
theorem write_eq (t : Transport) (line : Bytes) : t.write line =
    if t.broken then
      (.error .brokenPipe,
        { t with unwritten := if t.isFull then t.unwritten else t.unwritten ++ [line] })
    else (.ok (), { t with written := t.written ++ (t.unwritten ++ [line]), unwritten := [] }) := by
  rw [write]
  by_cases hb : t.broken = true
  · rw [if_pos hb]
    by_cases hf : t.isFull = true
    · have hstuck : t.isStuck = true := by simp [isStuck, hb, unwritten_ne_nil_of_isFull hf]
      rw [if_pos hf, if_pos hf, flush_of_stuck hstuck]
    · have hstuck : isStuck { t with unwritten := t.unwritten ++ [line] } = true := by
        simp [isStuck, hb]
      rw [if_neg hf, if_neg hf]
      exact flush_of_stuck hstuck
  · rw [if_neg hb]
    have hfree (t' : Transport) (h : t'.broken = t.broken) : t'.isStuck = false := by
      simp [isStuck, h, hb]
    by_cases hf : t.isFull = true
    · rw [if_pos hf, flush_of_not_stuck (hfree t rfl), ← List.append_assoc]
      exact flush_of_not_stuck (hfree _ rfl)
    · rw [if_neg hf]
      exact flush_of_not_stuck (hfree _ rfl)

theorem send_of_isSendable (hc : t.closed = false) (h : IsSendable line) :
    t.send line = t.write line := by
  rw [send, if_neg (by simp [hc]), if_neg (by simp [h.isValid]),
    if_neg (by rw [any_break_iff, not_or]; exact h.not_mem)]

/-- **A line is refused or written.** A refusal leaves everything as it was. -/
theorem send_cases (t : Transport) (line : Bytes) :
    (∃ e, IsRefusal e ∧ t.send line = (.error e, t)) ∨
      t.closed = false ∧ IsSendable line ∧ t.send line = t.write line := by
  rw [send]
  split_ifs with hc hv hb
  · exact .inl ⟨_, .inl rfl, rfl⟩
  · exact .inl ⟨_, .inr (.inl rfl), rfl⟩
  · exact .inl ⟨_, .inr (.inr rfl), rfl⟩
  · rw [any_break_iff, not_or] at hb
    exact .inr ⟨by simpa using hc, ⟨by simpa using hv, hb⟩, rfl⟩

/-- A send changes nothing but what is in the write buffer and what has been written. -/
theorem exists_send (t : Transport) (line : Bytes) :
    ∃ unwritten written, (t.send line).2 = { t with unwritten, written } := by
  rcases t.send_cases line with ⟨e, -, hs⟩ | ⟨-, -, hs⟩
  · exact ⟨t.unwritten, t.written, by rw [hs]⟩
  · rw [hs, write_eq]
    split_ifs <;> exact ⟨_, _, rfl⟩

theorem not_isRefusal_brokenPipe : ¬ IsRefusal .brokenPipe := by
  rintro (h | h | h) <;> cases h

/-- The lines that a transport has taken: those it has written, and behind them the write buffer. -/
def taken (t : Transport) : List Bytes := t.written ++ t.unwritten

/-- A transport takes a line. It writes it, behind the write buffer, or it keeps it there because
the stream does not take it. -/
inductive Took (t : Transport) (line : Bytes) : Outcome Unit → Transport → Prop where
  | written : Took t line (.ok ())
      { t with written := t.written ++ (t.unwritten ++ [line]), unwritten := [] }
  | buffered : Took t line (.error .brokenPipe) { t with unwritten := t.unwritten ++ [line] }

/-- Where the write buffer is empty, it stays so. -/
theorem with_unwritten_nil (h : t.unwritten = []) (written : List Bytes) :
    ({ t with written, unwritten := [] } : Transport) = { t with written } := by
  rw [← h]

theorem send_of_isClean {limit : Nat} (ht : t.IsOpen) (hl : IsClean limit line) :
    t.send line =
      (.ok (), { t with written := t.written ++ (t.unwritten ++ [line]), unwritten := [] }) := by
  rw [send_of_isSendable ht.closed hl.toIsSendable, write_eq, ht.broken]
  rfl

/-- **A stream is shut down unless something is left in the write buffer** that it does not take. -/
theorem close_of_open (h : t.closed = false) : t.close =
    if t.isStuck then { t with closed := true }
    else { t with
      closed := true
      written := t.written ++ t.unwritten
      unwritten := []
      shutdowns := t.shutdowns + 1 } := by
  have hstuck : isStuck { t with closed := true } = t.isStuck := rfl
  rw [close, if_neg (by simp [h])]
  split_ifs with ht
  · rw [flush_of_stuck (hstuck.trans ht)]
  · rw [flush_of_not_stuck (hstuck.trans (Bool.eq_false_iff.2 ht))]

/-! ### Reading -/

theorem poll_keeps {t' : Transport} {o : Option (Outcome Bytes)} (h : t.poll = (o, t')) :
    t'.unwritten = t.unwritten ∧ t'.written = t.written ∧ t'.broken = t.broken := by
  rw [poll] at h
  split_ifs at h <;> cases h <;> exact ⟨rfl, rfl, rfl⟩

/-- A line on its way is the answer as soon as all of it has arrived; until then there is none. -/
theorem poll_line (ht : t.IsOpen) (hl : IsClean t.limit line)
    (hb : t.unread ++ rest = frame (line :: lines)) :
    (∃ t', t.poll = (some (.ok line), t') ∧ t'.IsOpen ∧ t'.limit = t.limit ∧
      t'.written = t.written ∧ t'.unread ++ rest = frame lines) ∨
    ∃ t', t.poll = (none, t') ∧ t'.IsOpen ∧ t'.limit = t.limit ∧
      t'.written = t.written ∧ t'.unread = t.unread ∧ t'.arrived = [] ∧ rest ≠ [] := by
  rw [frame_cons] at hb
  rcases arrived_cases hb with ⟨tail, htail, hrest⟩ | ⟨tail, htail, hrest⟩
  · right
    have hm : LineReader.lineFeed ∉ t.unread := fun hm =>
      hl.not_mem.1 (htail ▸ List.mem_append_left _ hm)
    have hlen : t.unread.length ≤ t.limit := by
      refine Nat.le_trans ?_ hl.length_le
      rw [htail, List.length_append]
      exact Nat.le_add_right ..
    obtain ⟨r, hp, hs, hlim, hbuf⟩ := LineReader.poll_of_not_mem ht.reader hm hlen
    refine ⟨{ t with reader := r, arrived := [] }, ?_,
      ⟨ht.closed, ht.cancelled, ht.ended, ht.broken, hs⟩, hlim, rfl, ?_, rfl, by simp [hrest]⟩
    · simp [poll, ht.closed, ht.cancelled, ht.ended, hp]
    · rw [unread, hbuf, List.append_nil]
      rfl
  · left
    obtain ⟨arrived, r, hp, hs, hlim, hbuf⟩ := LineReader.poll_of_line false ht.reader hl htail
    refine ⟨{ t with reader := r, arrived }, ?_,
      ⟨ht.closed, ht.cancelled, ht.ended, ht.broken, hs⟩, hlim, rfl, ?_⟩
    · simp [poll, ht.closed, ht.cancelled, ht.ended, hp]
    · rw [unread, hbuf, hrest]

/-- Where nothing has arrived, there is no answer. -/
theorem poll_nil (ht : t.IsOpen) (hb : t.unread = []) :
    ∃ t', t.poll = (none, t') ∧ t'.IsOpen ∧ t'.limit = t.limit ∧ t'.written = t.written ∧
      t'.unread = [] ∧ t'.arrived = [] := by
  have hb' : t.reader.buffer ++ t.arrived = [] := hb
  have hm : LineReader.lineFeed ∉ t.reader.buffer ++ t.arrived := by simp [hb']
  obtain ⟨r, hp, hs, hlim, hbuf⟩ := LineReader.poll_of_not_mem ht.reader hm (by simp [hb'])
  refine ⟨{ t with reader := r, arrived := [] }, ?_,
    ⟨ht.closed, ht.cancelled, ht.ended, ht.broken, hs⟩, hlim, rfl, ?_, rfl⟩
  · simp [poll, ht.closed, ht.cancelled, ht.ended, hp]
  · rw [unread, hbuf, hb', List.append_nil]

end Transport

end SealedChat
