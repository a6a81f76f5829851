import SealedChat.Proofs.Transport.Polled

/-!
# What a reader makes of bytes

As long as nothing has been refused, the next answer of a reader is settled by the bytes that it has
not answered for, by its limit, and by whether the input is over (`LineReader.Verdict`,
`LineReader.Orderly.poll`). A refusal leaves the reader in disorder: the next answer says that the
input is over, whatever is there, and lines may wait unlooked at. What can be said then is in
`LineReader.gone_of_poll`.
-/

namespace SealedChat

namespace ChatError

/-- A line was not accepted: it is too long, or it is not text. -/
def IsRefusal (e : ChatError) : Prop := e = lineTooLong ∨ e = unreadableLine

end ChatError

namespace LineReader

variable {r r' : LineReader} {b rest arrived arrived' : Bytes} {o : Outcome Bytes}

/-! ## Refusals -/

theorem checked_cases (b : Bytes) :
    (Utf8.isValid (chomp b) ∧ checked b = .ok (chomp b)) ∨
      (¬Utf8.isValid (chomp b) ∧ checked b = .error .unreadableLine) := by
  by_cases h : Utf8.isValid (chomp b)
  · exact .inl ⟨h, if_pos h⟩
  · exact .inr ⟨h, if_neg h⟩

/-- The answer is a refusal. -/
def Refuses (o : Outcome Bytes) : Prop := ∃ e, o = .error e ∧ e.IsRefusal

theorem not_refuses_closed : ¬Refuses (.error .connectionClosed) := by
  rintro ⟨e, he, h | h⟩ <;> (subst h; cases he)

theorem refuses_tooLong : Refuses (.error .lineTooLong) := ⟨_, rfl, .inl rfl⟩

theorem refuses_checked_iff : Refuses (checked b) ↔ (checked b).isOk = false := by
  rcases checked_cases b with ⟨-, h⟩ | ⟨-, h⟩
  · rw [h]
    constructor
    · rintro ⟨e, he, -⟩
      cases he
    · intro h
      cases h
  · rw [h]
    exact ⟨fun _ => rfl, fun _ => ⟨_, rfl, .inr rfl⟩⟩

/-! ## Looking at the buffer -/

/-- Reading more leaves alone what is not about bytes. -/
theorem read_keeps (r : LineReader) (b : Bytes) :
    (r.read b).2.refused = r.refused ∧ (r.read b).2.discarding = r.discarding := by
  simp only [LineReader.read, makeRoom]
  split_ifs <;> exact ⟨rfl, rfl⟩

/-! ## Readers in good order -/

/-- Nothing has been refused, and what is not to be looked at again is no line. -/
structure Orderly (r : LineReader) : Prop where
  refused : r.refused = false
  discarding : r.discarding = false
  looked : r.readable = false → lineFeed ∉ r.buffer ∧ r.buffer.length ≤ r.limit
  finished : r.readable = false → r.ended = true → r.buffer = [] ∨ r.buffer = [carriageReturn]

theorem orderly_new (limit : Nat) : (new limit).Orderly :=
  ⟨rfl, rfl, fun _ => ⟨List.not_mem_nil, Nat.zero_le _⟩, fun _ h => nomatch h⟩

/-- The answer to bytes that have not been answered for, and the bytes that are left after it. -/
inductive Verdict (limit : Nat) (finished : Bool) : Bytes → Option (Outcome Bytes) → Bytes → Prop
  | line {line rest : Bytes} : lineFeed ∉ line → line.length ≤ limit →
      Verdict limit finished (line ++ lineFeed :: rest) (some (checked line)) rest
  | tooLong {b : Bytes} : lineFeed ∉ b.take (limit + 1) → limit < b.length →
      Verdict limit finished b (some (.error .lineTooLong)) b
  /-- The last line has no line feed. -/
  | last {b : Bytes} : finished = true → lineFeed ∉ b → b.length ≤ limit →
      ¬(b = [] ∨ b = [carriageReturn]) → Verdict limit finished b (some (checked b)) []
  | spent {b : Bytes} : finished = true → b = [] ∨ b = [carriageReturn] → b.length ≤ limit →
      Verdict limit finished b (some (.error .connectionClosed)) b
  | more {b : Bytes} : finished = false → lineFeed ∉ b → b.length ≤ limit →
      Verdict limit finished b none b

/-- A verdict on what has been read stands when more arrives, if it is one on a line. -/
theorem Verdict.append {limit : Nat} {finished : Bool}
    (h : Verdict limit false b (some o) rest) (more : Bytes) :
    Verdict limit finished (b ++ more) (some o) (rest ++ more) := by
  cases h with
  | line hm hl =>
    rw [List.append_assoc, List.cons_append]
    exact .line hm hl
  | tooLong hm hl =>
    refine .tooLong ?_ (by rw [List.length_append]; omega)
    rwa [List.take_append_of_le_length (by omega)]
  | last h => cases h
  | spent h => cases h

/-- The next line of bytes that have not been answered for: what is in front of their first line
feed, or all of them when nothing more will arrive. -/
def IsNext (finished : Bool) (b line : Bytes) : Prop :=
  lineFeed ∉ line ∧ ((∃ rest, b = line ++ lineFeed :: rest) ∨
    finished = true ∧ b = line ∧ ¬(line = [] ∨ line = [carriageReturn]))

theorem IsNext.eq {finished : Bool} {line line' : Bytes} (hm : lineFeed ∉ line)
    (h : IsNext finished (line ++ lineFeed :: rest) line') : line' = line := by
  obtain ⟨hm', ⟨rest', hb⟩ | ⟨-, rfl, -⟩⟩ := h
  · have hs := splitLine?_append hm rest
    rw [hb, splitLine?_append hm'] at hs
    exact congrArg Prod.fst (Option.some.inj hs)
  · exact absurd (by simp) hm'

/-- A verdict says that the other side has gone at the end of the input, and on a line that is no
text. -/
theorem Verdict.disconnect_iff {limit : Nat} {finished : Bool}
    (h : Verdict limit finished b (some o) rest) :
    (∃ e, o = .error e ∧ e.isDisconnect = true) ↔
      (∃ line, IsNext finished b line ∧ line.length ≤ limit ∧ ¬Utf8.isValid (chomp line)) ∨
      finished = true ∧ (b = [] ∨ b = [carriageReturn]) ∧ b.length ≤ limit := by
  have hchecked (line : Bytes) : (∃ e, checked line = .error e ∧ e.isDisconnect = true) ↔
      ¬Utf8.isValid (chomp line) := by
    rcases checked_cases line with ⟨hv, hc⟩ | ⟨hv, hc⟩
    · simp [hc, hv]
    · simp [hc, hv, ChatError.unreadableLine, ChatError.isDisconnect]
  cases h with
  | @line line rest hm hl =>
    rw [hchecked]
    constructor
    · exact fun hv => .inl ⟨line, ⟨hm, .inl ⟨_, rfl⟩⟩, hl, hv⟩
    · rintro (⟨line', hn, -, hv⟩ | ⟨-, hb | hb, -⟩)
      · rwa [hn.eq hm] at hv
      · simp at hb
      · have hmem : lineFeed ∈ line ++ lineFeed :: rest := by simp
        rw [hb] at hmem
        exact absurd hmem (by decide)
  | tooLong hm hl =>
    constructor
    · rintro ⟨e, he, hd⟩
      cases he
      cases hd
    · rintro (⟨line, ⟨-, ⟨rest, rfl⟩ | ⟨-, rfl, -⟩⟩, hl', -⟩ | ⟨-, -, hl'⟩)
      · refine absurd ?_ hm
        rw [List.take_append, List.take_of_length_le (by omega),
          show limit + 1 - line.length = limit - line.length + 1 by omega, List.take_succ_cons]
        simp
      · omega
      · omega
  | last hf hm hl hne =>
    rw [hchecked]
    constructor
    · exact fun hv => .inl ⟨b, ⟨hm, .inr ⟨hf, rfl, hne⟩⟩, hl, hv⟩
    · rintro (⟨line, ⟨-, ⟨rest, rfl⟩ | ⟨-, rfl, -⟩⟩, -, hv⟩ | ⟨-, hb, -⟩)
      · exact absurd (by simp) hm
      · exact hv
      · exact absurd hb hne
  | spent hf hb hl =>
    exact ⟨fun _ => .inr ⟨hf, hb, hl⟩, fun _ => ⟨_, rfl, rfl⟩⟩

/-- What an orderly reader finds in its buffer. -/
inductive Sees (r : LineReader) : Look × LineReader → Prop
  | answer {o : Outcome Bytes} {r' : LineReader} : r'.limit = r.limit →
      Verdict r.limit r.ended r.buffer (some o) r'.buffer → (¬Refuses o → r'.Orderly) →
      Sees r (.answer o, r')
  | ended {r' : LineReader} : r'.limit = r.limit → r.ended = true →
      r.buffer = [] ∨ r.buffer = [carriageReturn] → r.buffer.length ≤ r.limit →
      r'.buffer = r.buffer → r'.Orderly → Sees r (.ended, r')
  | more {r' : LineReader} : r'.limit = r.limit → r'.ended = r.ended →
      (r.readable = true → r.ended = false) → lineFeed ∉ r.buffer → r.buffer.length ≤ r.limit →
      r'.buffer = r.buffer → r'.readable = false → r'.Orderly → Sees r (.more, r')

/-- An answer with a line keeps the order. -/
theorem Orderly.answered (h : r.Orderly) (hr : r.readable = true) (n : Nat)
    (ho : ¬Refuses (checked b)) : (LineReader.answered (checked b) (r.advance n)).2.Orderly where
  refused := by
    rw [refuses_checked_iff, Bool.not_eq_false] at ho
    simp [LineReader.answered, ho]
  discarding := h.discarding
  looked hr' := absurd hr' (by simp [LineReader.answered, advance, hr])
  finished hr' := absurd hr' (by simp [LineReader.answered, advance, hr])

theorem Orderly.look (h : r.Orderly) : Sees r r.look := by
  have hpass : r.pass = r := by rw [pass, h.discarding]; rfl
  rw [LineReader.look, if_neg (by simp [h.refused])]
  cases hr : r.readable with
  | false =>
    obtain ⟨hm, hl⟩ := h.looked hr
    exact .more rfl rfl (fun hr' => absurd hr' (by simp [hr])) hm hl rfl hr h
  | true =>
    rw [if_pos rfl]
    have hspec := r.takeLine_spec
    rw [hpass] at hspec
    rcases hspec with ⟨line, rest, -, hb, hm, hl, ht⟩ | ⟨hm, hl, ht⟩ | ⟨hm, hl, ht⟩
    · rw [ht]
      have hdrop : r.buffer.drop (line.length + 1) = rest := by
        rw [hb, List.append_cons]
        exact List.drop_left' (by simp)
      refine .answer rfl ?_ fun ho => ?_
      · show Verdict _ _ _ _ (r.buffer.drop (line.length + 1))
        rw [hdrop, hb]
        exact .line hm hl
      · exact h.answered hr _ ho
    · rw [ht]
      refine .answer rfl (.tooLong hm hl) fun ho => absurd refuses_tooLong ho
    · rw [ht]
      have hl := hl h.discarding
      cases he : r.ended with
      | false =>
        simp only [he]
        refine .more rfl he.symm (fun _ => he) hm hl rfl rfl ?_
        exact ⟨h.refused, h.discarding, fun _ => ⟨hm, hl⟩, fun _ he' => absurd he' (by simp)⟩
      | true =>
        by_cases hb : r.buffer = [] ∨ r.buffer = [carriageReturn]
        · have hrest : r.takeRest = (none, r) := if_pos hb
          simp only [he, hrest]
          exact .ended rfl he hb hl rfl ⟨h.refused, h.discarding, fun _ => ⟨hm, hl⟩, fun _ _ => hb⟩
        · have hrest : r.takeRest = (some (checked r.buffer), r.advance r.buffer.length) :=
            if_neg hb
          simp only [he, hrest]
          refine .answer rfl ?_ fun ho => ?_
          · show Verdict _ _ _ _ (r.buffer.drop r.buffer.length)
            rw [List.drop_length]
            exact .last he hm hl hb
          · exact h.answered hr _ ho

/-- At the end of the input a reader looks once more at what it has. -/
theorem Orderly.finish (h : r.Orderly) (hr : r.readable = false) :
    ∃ o r', (r.finish = (.answer o, r') ∨ r.finish = (.ended, r') ∧ o = .error .connectionClosed) ∧
      Verdict r.limit true r.buffer (some o) r'.buffer ∧ r'.limit = r.limit ∧
      (¬Refuses o → r'.Orderly) := by
  rw [LineReader.finish]
  cases he : r.ended with
  | true =>
    exact ⟨_, r, .inr ⟨rfl, rfl⟩, .spent rfl (h.finished hr he) (h.looked hr).2, rfl, fun _ => h⟩
  | false =>
    rw [if_neg (by decide)]
    have hlast : ({ r with ended := true, readable := true } : LineReader).Orderly :=
      ⟨h.refused, h.discarding, nofun, nofun⟩
    have hsees := hlast.look
    generalize ({ r with ended := true, readable := true } : LineReader).look = seen at hsees
    cases hsees with
    | answer hlim hv ho => exact ⟨_, _, .inl rfl, hv, hlim, ho⟩
    | ended hlim _ hb hl hb' ho =>
      refine ⟨_, _, .inr ⟨rfl, rfl⟩, ?_, hlim, fun _ => ho⟩
      rw [hb']
      exact .spent rfl hb hl
    | more _ _ he' => cases he' rfl

/-- **The answer of an orderly reader is the verdict on what it has not answered for**, in whatever
pieces that has arrived. -/
theorem Orderly.poll {finished : Bool} (h : r.Orderly)
    (he : r.ended = true → arrived = [] ∧ finished = true) :
    ∃ o arrived' r', r.poll arrived finished = (o, arrived', r') ∧
      Verdict r.limit finished (r.buffer ++ arrived) o (r'.buffer ++ arrived') ∧
      r'.limit = r.limit ∧ ((∀ x, o = some x → ¬Refuses x) → r'.Orderly) := by
  induction hn : arrived.length using Nat.strongRecOn generalizing r arrived with
  | ind n ih =>
    have hsees := h.look
    rw [LineReader.poll]
    generalize r.look = seen at hsees
    cases hsees with
    | @answer o r₁ hlim hv ho =>
      refine ⟨_, _, _, rfl, ?_, hlim, fun hx => ho (hx o rfl)⟩
      cases hend : r.ended with
      | true =>
        obtain ⟨rfl, rfl⟩ := he hend
        rw [hend] at hv
        simpa using hv
      | false =>
        rw [hend] at hv
        exact hv.append arrived
    | @ended r₁ hlim hend hb hl hb' ho =>
      obtain ⟨rfl, rfl⟩ := he hend
      refine ⟨_, _, _, rfl, ?_, hlim, fun _ => ho⟩
      rw [hb', List.append_nil]
      exact .spent rfl hb hl
    | @more r₁ hlim hend hreadable hm hl hb hr ho =>
      dsimp only
      by_cases ha : arrived = []
      · rw [if_pos ha]
        subst ha
        cases finished with
        | false =>
          refine ⟨_, _, _, rfl, ?_, hlim, fun _ => ho⟩
          rw [hb, List.append_nil]
          exact .more rfl hm hl
        | true =>
          rw [if_pos rfl]
          obtain ⟨o, r₂, hf, hv, hlim', ho'⟩ := ho.finish hr
          rw [hb, hlim] at hv
          refine ⟨some o, [], r₂, ?_, by simpa using hv, hlim'.trans hlim, fun hx => ho' (hx o rfl)⟩
          rcases hf with hf | ⟨hf, rfl⟩
          · rw [hf]
          · rw [hf]
      · rw [if_neg ha]
        have hread : (r₁.read arrived).2.Orderly := by
          obtain ⟨hrefused, hdiscarding⟩ := r₁.read_keeps arrived
          exact ⟨hrefused.trans ho.refused, hdiscarding.trans ho.discarding,
            fun h => (by cases h), fun h => (by cases h)⟩
        obtain ⟨o, arrived', r', hp, hv, hlim', ho'⟩ := ih _ (hn ▸ length_read_lt r₁ ha) hread
          (fun hend' => by cases hend') rfl
        rw [buffer_read_append, limit_read, hb, hlim] at hv
        exact ⟨o, arrived', r', hp, hv, hlim'.trans ((limit_read _ _).trans hlim), ho'⟩

/-! ## Readers in any order -/

/-- A whole line stands in the bytes, behind lines that may be passed over. While the rest of a line
is being discarded, there is a line feed in front of it. -/
def HasLine (discarding : Bool) (b line : Bytes) : Prop :=
  lineFeed ∉ line ∧ ∃ passed rest, b = passed ++ line ++ lineFeed :: rest ∧
    (passed = [] ∧ discarding = false ∨ ∃ p, passed = p ++ [lineFeed])

variable {line : Bytes} {discarding : Bool}

theorem HasLine.append (h : HasLine discarding b line) (more : Bytes) :
    HasLine discarding (b ++ more) line := by
  obtain ⟨hm, passed, rest, rfl, hp⟩ := h
  exact ⟨hm, passed, rest ++ more, by simp, hp⟩

/-- A line in what is left was one before something was passed over. -/
theorem HasLine.of_pass {more : Bytes}
    (h : HasLine r.pass.discarding (r.pass.buffer ++ more) line) :
    HasLine r.discarding (r.buffer ++ more) line := by
  unfold pass at h
  by_cases hd : r.discarding = true
  · rw [if_pos hd] at h
    cases hs : splitLine? r.buffer with
    | none =>
      simp only [hs, advance, List.drop_length, List.nil_append] at h
      obtain ⟨hm, passed, rest, rfl, ⟨-, hd'⟩ | ⟨p, rfl⟩⟩ := h
      · rw [hd] at hd'
        cases hd'
      · exact ⟨hm, r.buffer ++ (p ++ [lineFeed]), rest, by simp, .inr ⟨r.buffer ++ p, by simp⟩⟩
    | some q =>
      obtain ⟨-, hb⟩ := splitLine?_eq_some hs
      have hdrop : r.buffer.drop (q.1.length + 1) = q.2 := by
        rw [hb, List.append_cons]
        exact List.drop_left' (by simp)
      simp only [hs, advance, hdrop] at h
      obtain ⟨hm, passed, rest, heq, hp⟩ := h
      refine ⟨hm, q.1 ++ [lineFeed] ++ passed, rest, ?_, .inr ?_⟩
      · rw [hb, List.append_assoc q.1, List.cons_append, heq]
        simp
      · rcases hp with ⟨rfl, -⟩ | ⟨p, rfl⟩
        · exact ⟨q.1, by simp⟩
        · exact ⟨q.1 ++ lineFeed :: p, by simp⟩
  · rw [if_neg hd] at h
    exact h

/-- Nothing that is found in a buffer says that the other side has gone, but a line that is no
text. -/
theorem disconnect_checked {e : ChatError} (h : checked b = .error e) :
    e.isDisconnect = true ∧ ¬Utf8.isValid (chomp b) := by
  rcases checked_cases b with ⟨-, hc⟩ | ⟨hv, hc⟩
  · rw [hc] at h
    cases h
  · rw [hc] at h
    cases h
    exact ⟨rfl, hv⟩

/-- What a reader finds in its buffer. -/
inductive Finds (r : LineReader) : Look × LineReader → Prop
  | refused : r.refused = true → Finds r (.ended, { r with refused := false, readable := false })
  | answer {o : Outcome Bytes} {r' : LineReader} : r.refused = false →
      (r'.refused = true ↔ Refuses o) → r'.ended = r.ended →
      (∀ e, o = .error e → e.isDisconnect = true → r.ended = true ∨
        ∃ line, HasLine r.discarding r.buffer line ∧ ¬Utf8.isValid (chomp line)) →
      Finds r (.answer o, r')
  | ended {r' : LineReader} : r.refused = false → r'.refused = false → r.ended = true →
      r'.ended = r.ended → Finds r (.ended, r')
  | more {r' : LineReader} : r.refused = false → r'.refused = false → r'.ended = r.ended →
      (∀ more line, HasLine r'.discarding (r'.buffer ++ more) line →
        HasLine r.discarding (r.buffer ++ more) line) → Finds r (.more, r')

theorem look_finds (r : LineReader) : r.Finds r.look := by
  rw [look]
  cases hrefused : r.refused with
  | true => exact .refused hrefused
  | false =>
    rw [if_neg (by decide)]
    cases hr : r.readable with
    | false => exact .more hrefused hrefused rfl fun _ _ h => h
    | true =>
      rw [if_pos rfl]
      have hpass : r.pass.refused = false := r.pass_keeps.2.2.trans hrefused
      rcases r.takeLine_spec with ⟨line, rest, hd, hb, hm, -, ht⟩ | ⟨-, -, ht⟩ | ⟨-, -, ht⟩
      · rw [ht]
        refine .answer hrefused ?_ r.pass_keeps.2.1 fun e he _ =>
          .inr ⟨line, ?_, (disconnect_checked he).2⟩
        · rw [refuses_checked_iff]
          simp
        · have hline : HasLine r.pass.discarding (r.pass.buffer ++ []) line :=
            ⟨hm, [], rest, by rw [hb]; simp, .inl ⟨rfl, hd⟩⟩
          simpa using hline.of_pass
      · rw [ht]
        refine .answer hrefused ⟨fun _ => refuses_tooLong, fun _ => rfl⟩ r.pass_keeps.2.1 ?_
        rintro e ⟨⟩ hd
        cases hd
      · rw [ht]
        cases he : r.ended with
        | false =>
          simp only [r.pass_keeps.2.1, he]
          exact .more hrefused hpass he.symm fun _ _ h => h.of_pass
        | true =>
          simp only [r.pass_keeps.2.1, he]
          by_cases hb : r.pass.buffer = [] ∨ r.pass.buffer = [carriageReturn]
          · have hrest : r.pass.takeRest = (none, r.pass) := if_pos hb
            rw [if_pos trivial, hrest]
            exact .ended hrefused hpass he r.pass_keeps.2.1
          · have hrest : r.pass.takeRest =
                (some (checked r.pass.buffer), r.pass.advance r.pass.buffer.length) := if_neg hb
            rw [if_pos trivial, hrest]
            refine .answer hrefused ?_ r.pass_keeps.2.1 fun _ _ _ => .inl he
            rw [refuses_checked_iff]
            simp

/-- At the end of the input, whatever a reader finds, it remembers whether it refuses. -/
theorem refused_finish (r : LineReader) (hr : r.refused = false) :
    (∃ o r', r.finish = (.answer o, r') ∧ (r'.refused = true ↔ Refuses o)) ∨
      ∃ l r', r.finish = (l, r') ∧ r'.refused = false ∧ ∀ o, l ≠ .answer o := by
  rw [finish]
  cases r.ended with
  | true => exact .inr ⟨_, _, rfl, hr, nofun⟩
  | false =>
    rw [if_neg (by decide)]
    have hfinds := look_finds { r with ended := true, readable := true }
    generalize ({ r with ended := true, readable := true } : LineReader).look = found at hfinds
    cases hfinds with
    | refused hr' => exact absurd hr' (by simp [hr])
    | answer _ hrefused => exact .inl ⟨_, _, rfl, hrefused⟩
    | ended _ hrefused => exact .inr ⟨_, _, rfl, hrefused, nofun⟩
    | more _ hrefused => exact .inr ⟨_, _, rfl, hrefused, nofun⟩

/-- The answers of a reader in any order. If one says that the other side has gone, the answer before
was a refusal, or the input is over, or a whole line is there that is no text. -/
theorem gone_of_poll {finished : Bool} {x : Option (Outcome Bytes)}
    (he : r.ended = true → arrived = [] ∧ finished = true)
    (h : r.poll arrived finished = (x, arrived', r')) :
    (r'.ended = true → arrived' = [] ∧ finished = true) ∧
    (r'.refused = true ↔ ∃ o, x = some o ∧ Refuses o) ∧
    ∀ e, x = some (.error e) → e.isDisconnect = true → r.refused = true ∨ finished = true ∨
      ∃ line, HasLine r.discarding (r.buffer ++ arrived) line ∧ ¬Utf8.isValid (chomp line) := by
  induction hn : arrived.length using Nat.strongRecOn generalizing r arrived with
  | ind n ih =>
    have hfinds := r.look_finds
    rw [poll] at h
    generalize r.look = found at hfinds h
    cases hfinds with
    | refused hr =>
      cases h
      refine ⟨he, ?_, fun _ _ _ => .inl hr⟩
      simpa using not_refuses_closed
    | @answer o r₁ _ hrefused hended hgone =>
      cases h
      refine ⟨fun h => he (hended ▸ h), by simpa using hrefused, fun e hx hd => ?_⟩
      rcases hgone e (Option.some.inj hx) hd with hr | ⟨line, hl, hv⟩
      · exact .inr (.inl (he hr).2)
      · exact .inr (.inr ⟨line, hl.append _, hv⟩)
    | ended _ hrefused hended hkeep =>
      cases h
      refine ⟨fun h => he (hkeep ▸ h), ?_, fun _ _ _ => .inr (.inl (he hended).2)⟩
      simpa [hrefused] using not_refuses_closed
    | @more r₁ _ hrefused hended hline =>
      dsimp only at h
      split_ifs at h with ha hf
      · subst ha hf
        rcases r₁.refused_finish hrefused with ⟨o, r₂, hf, hr⟩ | ⟨l, r₂, hf, hr, hl⟩
        · rw [hf] at h
          cases h
          exact ⟨fun _ => ⟨rfl, rfl⟩, by simpa using hr, fun _ _ _ => .inr (.inl rfl)⟩
        · rw [hf] at h
          have hx : (some (.error .connectionClosed), [], r₂) = (x, arrived', r') := by
            cases l with
            | answer o => exact absurd rfl (hl o)
            | _ => exact h
          cases hx
          refine ⟨fun _ => ⟨rfl, rfl⟩, ?_, fun _ _ _ => .inr (.inl rfl)⟩
          simpa [hr] using not_refuses_closed
      · cases h
        exact ⟨fun h => ⟨rfl, (he (hended ▸ h)).2⟩, by simp [hrefused], fun _ h => by cases h⟩
      · have hkeep := r₁.read_keeps arrived
        have hread : (r₁.read arrived).2.ended = false := rfl
        obtain ⟨h₁, h₂, h₃⟩ := ih _ (hn ▸ length_read_lt r₁ ha)
          (fun hend => absurd hend (by simp [hread])) h rfl
        refine ⟨h₁, h₂, fun e hx hd => ?_⟩
        rcases h₃ e hx hd with hr | hf | ⟨line, hl, hv⟩
        · rw [hkeep.1, hrefused] at hr
          cases hr
        · exact .inr (.inl hf)
        · rw [hkeep.2, buffer_read_append] at hl
          exact .inr (.inr ⟨line, hline _ _ hl, hv⟩)

end LineReader

end SealedChat
