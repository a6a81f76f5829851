import SealedChat.Proofs.Transport

/-!
# Lines that a transport answers with

Whatever has arrived, and in whatever order a reader is: a line that it answers with is text without
a line feed (`IsLine`). A carriage return may still be in it. A transport that answers with a line
is not closed.

What a transport makes of a line that is sent depends on its breaks alone, as long as nobody has
closed or left it (`Transport.send_of_isValid`).
-/

namespace SealedChat

/-- Text without a line feed. -/
structure IsLine (line : Bytes) : Prop where
  isValid : Utf8.isValid line
  not_mem : LineReader.lineFeed ∉ line

namespace LineReader

variable {r r' : LineReader} {line b : Bytes}

theorem splitLine?_eq_some {p : Bytes × Bytes} (h : splitLine? b = some p) :
    lineFeed ∉ p.1 ∧ b = p.1 ++ lineFeed :: p.2 := by
  by_cases hm : lineFeed ∈ b
  · obtain ⟨a, rest, rfl, ha⟩ := List.eq_append_cons_of_mem hm
    rw [splitLine?_append ha] at h
    cases h
    exact ⟨ha, rfl⟩
  · rw [splitLine?_of_not_mem hm] at h
    cases h

theorem splitLine?_eq_none (h : splitLine? b = none) : lineFeed ∉ b := by
  intro hm
  obtain ⟨a, rest, rfl, ha⟩ := List.eq_append_cons_of_mem hm
  rw [splitLine?_append ha] at h
  cases h

theorem isLine_of_checked (hm : lineFeed ∉ b) (h : checked b = .ok line) : IsLine line := by
  unfold checked at h
  split_ifs at h with hv
  cases h
  refine ⟨hv, fun hl => hm ?_⟩
  unfold chomp at hl
  split_ifs at hl
  · exact List.dropLast_subset _ hl
  · exact hl

/-! ## The buffer -/

/-- Of a line that is passed over, nothing is kept. -/
theorem buffer_pass (h : r.pass.discarding = true) : r.pass.buffer = [] := by
  unfold pass at h ⊢
  split_ifs at h ⊢ with hd
  · cases hs : splitLine? r.buffer with
    | none => simp [advance]
    | some p =>
      rw [hs] at h
      cases h
  · exact absurd h hd

/-- Passing over bytes leaves alone what is not about bytes. -/
theorem pass_keeps (r : LineReader) :
    r.pass.limit = r.limit ∧ r.pass.ended = r.ended ∧ r.pass.refused = r.refused := by
  unfold pass
  split_ifs
  · split <;> exact ⟨rfl, rfl, rfl⟩
  · exact ⟨rfl, rfl, rfl⟩

/-- What a look at a buffer that may hold a line comes to, and what it leaves. -/
theorem takeLine_spec (r : LineReader) :
    (∃ line rest, r.pass.discarding = false ∧ r.pass.buffer = line ++ lineFeed :: rest ∧
      lineFeed ∉ line ∧ line.length ≤ r.limit ∧
      r.takeLine = (some (checked line), r.pass.advance (line.length + 1))) ∨
    (lineFeed ∉ r.pass.buffer.take (r.limit + 1) ∧ r.limit < r.pass.buffer.length ∧
      r.takeLine = (some (.error .lineTooLong), { r.pass with discarding := true })) ∨
    (lineFeed ∉ r.pass.buffer ∧ (r.pass.discarding = false → r.pass.buffer.length ≤ r.limit) ∧
      r.takeLine = (none, r.pass)) := by
  rw [takeLine]
  cases hd : r.pass.discarding with
  | true =>
    rw [buffer_pass hd]
    exact .inr (.inr ⟨List.not_mem_nil, (fun h => absurd h (by decide)), rfl⟩)
  | false =>
    rw [r.pass_keeps.1]
    cases hs : splitLine? (r.pass.buffer.take (r.limit + 1)) with
    | some p =>
      obtain ⟨hm, hb⟩ := splitLine?_eq_some hs
      have hlen := congrArg List.length hb
      simp only [List.length_take, List.length_append, List.length_cons] at hlen
      refine .inl ⟨p.1, p.2 ++ r.pass.buffer.drop (r.limit + 1), rfl, ?_, hm, by omega, rfl⟩
      rw [← List.cons_append, ← List.append_assoc, ← hb, List.take_append_drop]
    | none =>
      have hm := splitLine?_eq_none hs
      by_cases hlong : r.limit < r.pass.buffer.length
      · exact .inr (.inl ⟨hm, hlong, by simp [r.pass_keeps.1, hlong]⟩)
      · rw [List.take_of_length_le (by omega)] at hm
        exact .inr (.inr ⟨hm, fun _ => by omega, by simp [hlong]⟩)

/-- A reader takes the first line of its buffer or refuses it, unless the buffer holds no whole
line. -/
theorem takeLine_cases (r : LineReader) :
    (∃ b r', lineFeed ∉ b ∧ r.takeLine = (some (checked b), r')) ∨
      (∃ r', r.takeLine = (some (.error .lineTooLong), r')) ∨
      r.takeLine = (none, r.pass) ∧ lineFeed ∉ r.pass.buffer := by
  rcases r.takeLine_spec with ⟨line, rest, -, -, hm, -, ht⟩ | ⟨-, -, ht⟩ | ⟨hm, -, ht⟩
  · exact .inl ⟨line, _, hm, ht⟩
  · exact .inr (.inl ⟨_, ht⟩)
  · exact .inr (.inr ⟨ht, hm⟩)

theorem isLine_of_takeLine (h : r.takeLine = (some (.ok line), r')) : IsLine line := by
  rcases r.takeLine_cases with ⟨b, r₁, hm, ht⟩ | ⟨r₁, ht⟩ | ⟨ht, -⟩
  · rw [ht, Prod.mk.injEq, Option.some.injEq] at h
    exact isLine_of_checked hm h.1
  · rw [ht] at h
    cases h
  · rw [ht] at h
    cases h

/-- A buffer without an answer holds no whole line. -/
theorem not_mem_of_takeLine (h : r.takeLine = (none, r')) : lineFeed ∉ r'.buffer := by
  rcases r.takeLine_cases with ⟨b, r₁, -, ht⟩ | ⟨r₁, ht⟩ | ⟨ht, hm⟩
  · rw [ht] at h
    cases h
  · rw [ht] at h
    cases h
  · rw [ht] at h
    cases h
    exact hm

theorem isLine_of_takeRest (hm : lineFeed ∉ r.buffer) (h : r.takeRest = (some (.ok line), r')) :
    IsLine line := by
  unfold takeRest at h
  split_ifs at h
  · cases h
  · rw [Prod.mk.injEq, Option.some.injEq] at h
    exact isLine_of_checked hm h.1

/-! ## Answers -/

theorem isLine_of_look (h : r.look = (.answer (.ok line), r')) : IsLine line := by
  unfold look at h
  split_ifs at h with hrefused hreadable
  · cases h
  · rcases hl : r.takeLine with ⟨_ | result, r₁⟩
    · simp only [hl] at h
      split_ifs at h
      · rcases hr : r₁.takeRest with ⟨_ | result, r₂⟩
        · simp only [hr] at h
          cases h
        · simp only [hr, answered] at h
          cases h
          exact isLine_of_takeRest (not_mem_of_takeLine hl) hr
      · cases h
    · simp only [hl, answered] at h
      cases h
      exact isLine_of_takeLine hl
  · cases h

theorem isLine_of_finish (h : r.finish = (.answer (.ok line), r')) : IsLine line := by
  unfold finish at h
  split_ifs at h
  · cases h
  · exact isLine_of_look h

/-- **Whatever has arrived, a line that a reader answers with is a line.** -/
theorem isLine_of_poll {arrived arrived' : Bytes} {finished : Bool}
    (h : r.poll arrived finished = (some (.ok line), arrived', r')) : IsLine line := by
  induction hn : arrived.length using Nat.strongRecOn generalizing r arrived with
  | ind n ih =>
    rw [poll] at h
    rcases hl : r.look with ⟨result | _ | _, r₁⟩
    · simp only [hl] at h
      cases h
      exact isLine_of_look hl
    · simp only [hl] at h
      cases h
    · simp only [hl] at h
      split_ifs at h with harrived hfinished
      · rcases hf : r₁.finish with ⟨result | _ | _, r₂⟩
        · simp only [hf] at h
          cases h
          exact isLine_of_finish hf
        · simp only [hf] at h
          cases h
        · simp only [hf] at h
          cases h
      · cases h
      · exact ih _ (hn ▸ length_read_lt _ harrived) h rfl

/-- A first line that is short enough to be read at once is the answer, if it is text. -/
theorem poll_new {limit : Nat} (hm : lineFeed ∉ line) (hl : line.length ≤ limit)
    (hroom : line.length < initialRoom) :
    ∃ r, (new limit).poll (line ++ [lineFeed]) false = (some (checked line), [], r) := by
  have hlook : (new limit).look = (.more, new limit) := rfl
  have hne : line ++ [lineFeed] ≠ [] := by simp
  have hlen : (line ++ [lineFeed]).length ≤ max 1 initialRoom := by
    rw [List.length_append, List.length_singleton]
    omega
  rw [poll, hlook]
  dsimp only
  rw [if_neg hne]
  let r : LineReader := { new limit with
    buffer := line ++ [lineFeed]
    room := initialRoom - (line ++ [lineFeed]).length
    readable := true }
  have hread : (new limit).read (line ++ [lineFeed]) = ([], r) := by
    have hmake : (new limit).makeRoom = new limit := rfl
    have hstart : (new limit).room = initialRoom := rfl
    simp only [read, hmake, hstart]
    rw [List.drop_of_length_le hlen, List.take_of_length_le hlen]
    rfl
  have htake : r.buffer.take (r.limit + 1) = line ++ lineFeed :: [] :=
    List.take_of_length_le (by simpa [r, new] using hl)
  have hsplit : splitLine? (r.buffer.take (r.limit + 1)) = some (line, []) := by
    rw [htake, splitLine?_append hm]
  have hpass : r.pass = r := rfl
  rw [hread, poll]
  have hr : r.look = answered (checked line) (r.advance (line.length + 1)) := by
    have hdiscarding : r.discarding = false := rfl
    have hrefused : r.refused = false := rfl
    have hreadable : r.readable = true := rfl
    simp only [look, takeLine, hpass, hsplit, hdiscarding, hrefused, hreadable]
    rfl
  rw [hr]
  exact ⟨_, rfl⟩

end LineReader

namespace Transport

variable {t t' : Transport} {line payload : Bytes}

/-- A transport that answers with a line is as open for writing as before. -/
theorem poll_eq_line (h : t.poll = (some (.ok line), t')) :
    IsLine line ∧ t'.closed = false ∧ t'.broken = t.broken ∧ t'.written = t.written := by
  unfold poll at h
  split_ifs at h with hclosed hcancelled
  · cases h
  · cases h
  · rcases hp : t.reader.poll t.arrived t.ended with ⟨result, arrived, reader⟩
    simp only [hp] at h
    cases h
    exact ⟨LineReader.isLine_of_poll hp, by simpa using hclosed, rfl, rfl⟩

theorem poll_arrive {limit : Nat} (hm : LineReader.lineFeed ∉ line)
    (hl : line.length ≤ limit) (hroom : line.length < LineReader.initialRoom) :
    ∃ t', ((new limit).arrive (line ++ [LineReader.lineFeed])).2.poll =
      (some (LineReader.checked line), t') := by
  obtain ⟨r, hr⟩ := LineReader.poll_new hm hl hroom
  let t : Transport := { new limit with arrived := line ++ [LineReader.lineFeed] }
  have harrive : ((new limit).arrive (line ++ [LineReader.lineFeed])).2 = t := rfl
  have hclosed : t.closed = false := rfl
  have hcancelled : t.cancelled = false := rfl
  have hreader : t.reader.poll t.arrived t.ended = (some (LineReader.checked line), [], r) := hr
  exact ⟨{ t with reader := r, arrived := [] }, by
    simp only [harrive, poll, hclosed, hcancelled, hreader]
    rfl⟩

/-- A text is written unless there is a break in it. -/
theorem send_of_isValid (hc : t.closed = false) (hb : t.broken = false)
    (hv : Utf8.isValid payload) :
    t.send payload =
      if LineReader.lineFeed ∈ payload ∨ LineReader.carriageReturn ∈ payload then
        (.error .unsendableBreak, t)
      else
        (.ok (), { t with written := t.written ++ (t.unwritten ++ [payload]), unwritten := [] }) := by
  split_ifs with hbreak
  · rw [send, if_neg (by simp [hc]), if_neg (by simp [hv]), if_pos (any_break_iff.2 hbreak)]
  · rw [send_of_isSendable hc ⟨hv, not_or.1 hbreak⟩, write_eq, hb]
    rfl

end Transport

end SealedChat
