import SealedChat.Proofs.Line

/-!
# The end of a stream

A dialogue at one end of a line, and what the far side has written: bytes that are still coming, and
the end of the stream if the far side has shut it down. The bytes arrive in pieces of any size, at any
time; the end of the stream is seen at any time after the last of them. No waiting is called off.

If the dialogue hears the lines that were written and then that the connection is closed
(`Dialogue.Hears`), every course of events is finite and leads to the result that it promises
(`Dialogue.Hears.leads`). What carries the proof is that at any time the bytes that have not been
answered with are those of the lines that have not been heard (`Intake.Holds`).
-/

namespace SealedChat

/-! ## Readers at the end -/

namespace LineReader

variable {r : LineReader}

/-- The reader has seen the end, and all in front of it has been read. -/
structure IsOver (r : LineReader) : Prop where
  buffer : r.buffer = []
  ended : r.ended = true
  readable : r.readable = false
  refused : r.refused = false

theorem takeLine_of_nil (hd : r.discarding = false) (hb : r.buffer = []) :
    r.takeLine = (none, r) := by
  have hpass : r.pass = r := by rw [pass, hd]; rfl
  simp only [takeLine, hpass, hd, hb]
  rfl

/-- A reader that has answered with every line says that the input is over. -/
theorem poll_of_end (hr : r.Steady) (hb : r.buffer = []) :
    ∃ r', r.poll [] true = (some (.error .connectionClosed), [], r') ∧ r'.IsOver ∧
      r'.limit = r.limit := by
  have hlook := look_of_not_mem hr (by simp [hb]) (by simp [hb])
  let last : LineReader := { r with ended := true, readable := true }
  have htake : last.takeLine = (none, last) := takeLine_of_nil hr.discarding hb
  have hrest : last.takeRest = (none, last) := if_pos (.inl hb)
  have hfinish :
      finish { r with readable := false } = (.ended, { last with readable := false }) := by
    rw [finish, if_neg (by simp [hr.ended])]
    show last.look = _
    rw [look, if_neg (by simp [last, hr.refused]), if_pos rfl, htake]
    simp only [hrest]
    rfl
  refine ⟨{ last with readable := false }, ?_, ⟨hb, rfl, rfl, hr.refused⟩, rfl⟩
  rw [poll, hlook]
  simp only [if_true, hfinish]

/-- It keeps saying so. -/
theorem IsOver.poll (hr : r.IsOver) :
    r.poll [] true = (some (.error .connectionClosed), [], r) := by
  have hlook : r.look = (.more, r) := by simp [look, hr.refused, hr.readable]
  have hfinish : r.finish = (.ended, r) := by rw [finish, if_pos hr.ended]
  rw [LineReader.poll, hlook]
  simp only [if_true, hfinish]

end LineReader

/-! ## Steps -/

variable {α : Type}

/-- A dialogue on a transport, and what the far side has written for it. -/
structure Intake (α : Type) where
  speaker : Speaker α
  /-- The bytes that have not arrived. -/
  coming : Bytes
  /-- The far side has shut the stream down behind them. -/
  closing : Bool

namespace Intake

/-- A dialogue, on a new transport that reads lines up to this limit, before anything has arrived of
what the far side has written. -/
def start (d : Dialogue α) (limit : Nat) (far : Transport) : Intake α :=
  ⟨⟨d, .new limit⟩, frame far.written, decide (0 < far.shutdowns)⟩

inductive Step (x : Intake α) : Intake α → Prop
  | act {e : Speaker α} : x.speaker.Step e → Step x { x with speaker := e }
  /-- Some of the bytes arrive. -/
  | arrive {b rest : Bytes} : x.coming = b ++ rest → b ≠ [] → Step x { x with
      speaker := ⟨x.speaker.dialogue, (x.speaker.transport.arrive b).2⟩
      coming := rest }
  /-- The end of the stream is seen. -/
  | finish : x.coming = [] → x.closing = true → x.speaker.transport.ended = false → Step x { x with
      speaker := ⟨x.speaker.dialogue, x.speaker.transport.endInput⟩ }

/-- **Every course of events is finite, and leads to such a result.** As long as the dialogue has
not ended, there is a step to take. -/
inductive Leads (P : α → Prop) : Intake α → Prop
  | intro {x : Intake α} : (∃ a, x.speaker.dialogue = .done a ∧ P a) ∨ (∃ y, x.Step y) →
      (∀ y, x.Step y → Leads P y) → Leads P x

end Intake

/-- The dialogue hears these lines, each of them clean for a reader with this limit, and then, if
the stream is closed behind them, that the connection is closed; and ends with such a result. -/
inductive Dialogue.Hears (limit : Nat) (closing : Bool) (P : α → Prop) :
    Dialogue α → List Bytes → Prop
  | done {a : α} {lines : List Bytes} : P a → Hears limit closing P (done a) lines
  | line {wait : Option Duration} {next : Outcome Bytes → Dialogue α} {line : Bytes}
      {lines : List Bytes} : IsClean limit line → Hears limit closing P (next (.ok line)) lines →
      Hears limit closing P (receive wait next) (line :: lines)
  | closed {wait : Option Duration} {next : Outcome Bytes → Dialogue α} : closing = true →
      Hears limit closing P (next (.error .connectionClosed)) [] →
      Hears limit closing P (receive wait next) []

theorem Dialogue.Hears.of_receive {limit : Nat} {closing : Bool} {P : α → Prop}
    {wait : Option Duration} {next : Outcome Bytes → Dialogue α} {lines : List Bytes}
    (h : Hears limit closing P (receive wait next) lines) :
    (∃ line rest, lines = line :: rest ∧ IsClean limit line ∧
      Hears limit closing P (next (.ok line)) rest) ∨
    lines = [] ∧ closing = true ∧ Hears limit closing P (next (.error .connectionClosed)) [] := by
  cases h with
  | line hl h => exact .inl ⟨_, _, rfl, hl, h⟩
  | closed hc h => exact .inr ⟨rfl, hc, h⟩

/-! ## What is still to be heard -/

/-- Of what has been written, these lines have not been answered with. -/
structure Transport.Awaits (t : Transport) (coming : Bytes) (lines : List Bytes) : Prop where
  closed : t.closed = false
  cancelled : t.cancelled = false
  bytes : t.unread ++ coming = frame lines
  ended : t.ended = true → coming = []
  reader : t.reader.Steady ∨ lines = [] ∧ t.ended = true ∧ t.reader.IsOver

namespace Transport.Awaits

variable {t : Transport} {coming : Bytes} {lines : List Bytes}

/-- A look at the transport finds the next line; or nothing, while there is a line or the end of the
stream to come; or that the connection is closed, after the last line. -/
theorem poll (h : t.Awaits coming lines) (hl : ∀ line ∈ lines.head?, IsClean t.limit line) :
    (∃ line rest t', lines = line :: rest ∧ t.poll = (some (.ok line), t') ∧
      t'.limit = t.limit ∧ t'.Awaits coming rest) ∨
    (∃ t', t.poll = (none, t') ∧ t.ended = false ∧ t'.ended = false ∧ t'.arrived = [] ∧
      (lines ≠ [] → coming ≠ []) ∧ t'.limit = t.limit ∧ t'.Awaits coming lines) ∨
    ∃ t', lines = [] ∧ t.poll = (some (.error .connectionClosed), t') ∧ t'.limit = t.limit ∧
      t'.Awaits coming [] := by
  have hb := h.bytes
  rcases h.reader with hr | ⟨rfl, he, hr⟩
  · cases lines with
    | nil =>
      obtain ⟨hu, hc⟩ := List.append_eq_nil_iff.1 hb
      obtain ⟨hbuf, harr⟩ := List.append_eq_nil_iff.1 hu
      cases he : t.ended with
      | true =>
        obtain ⟨r, hp, ho, hlim⟩ := LineReader.poll_of_end hr hbuf
        refine .inr (.inr ⟨{ t with reader := r, arrived := [] }, rfl, ?_, hlim,
          ⟨h.closed, h.cancelled, ?_, h.ended, .inr ⟨rfl, he, ho⟩⟩⟩)
        · simp [Transport.poll, h.closed, h.cancelled, harr, he, hp]
        · simp [unread, ho.buffer, hc]
      | false =>
        obtain ⟨r, hp, hs, hlim, hbuf'⟩ := LineReader.poll_of_not_mem hr
          (by simp [hbuf, harr] : LineReader.lineFeed ∉ t.reader.buffer ++ t.arrived)
          (by simp [hbuf, harr])
        refine .inr (.inl ⟨{ t with reader := r, arrived := [] }, ?_, rfl, he, rfl,
          fun hn => absurd rfl hn, hlim, ⟨h.closed, h.cancelled, ?_, h.ended, .inl hs⟩⟩)
        · simp [Transport.poll, h.closed, h.cancelled, he, hp]
        · simp [unread, hbuf', hbuf, harr, hc]
    | cons line rest =>
      have hclean : IsClean t.limit line := hl line rfl
      rw [frame_cons] at hb
      rcases arrived_cases hb with ⟨tail, htail, hc⟩ | ⟨tail, htail, hrest⟩
      · -- not all of the line has arrived
        have hne : coming ≠ [] := by simp [hc]
        have he : t.ended = false := Bool.eq_false_iff.2 fun he => hne (h.ended he)
        have hm : LineReader.lineFeed ∉ t.unread := fun hm =>
          hclean.not_mem.1 (htail ▸ List.mem_append_left _ hm)
        have hlen : t.unread.length ≤ t.limit := by
          refine Nat.le_trans ?_ hclean.length_le
          rw [htail, List.length_append]
          exact Nat.le_add_right ..
        obtain ⟨r, hp, hs, hlim, hbuf⟩ := LineReader.poll_of_not_mem hr hm hlen
        refine .inr (.inl ⟨{ t with reader := r, arrived := [] }, ?_, he, he, rfl, fun _ => hne,
          hlim, ⟨h.closed, h.cancelled, ?_, h.ended, .inl hs⟩⟩)
        · simp [Transport.poll, h.closed, h.cancelled, he, hp]
        · rw [← h.bytes, unread, hbuf, List.append_nil]
          rfl
      · obtain ⟨arrived, r, hp, hs, hlim, hbuf⟩ :=
          LineReader.poll_of_line t.ended hr hclean htail
        refine .inl ⟨line, rest, { t with reader := r, arrived }, rfl, ?_, hlim,
          ⟨h.closed, h.cancelled, ?_, h.ended, .inl hs⟩⟩
        · simp [Transport.poll, h.closed, h.cancelled, hp]
        · rw [unread, hbuf, hrest]
  · obtain ⟨hu, hc⟩ := List.append_eq_nil_iff.1 hb
    have harr : t.arrived = [] := (List.append_eq_nil_iff.1 hu).2
    refine .inr (.inr ⟨{ t with arrived := [] }, rfl, ?_, rfl,
      ⟨h.closed, h.cancelled, ?_, h.ended, .inr ⟨rfl, he, hr⟩⟩⟩)
    · simp [Transport.poll, h.closed, h.cancelled, harr, he, hr.poll]
    · simp [unread, hr.buffer, hc]

theorem ended_of_ne_nil (h : t.Awaits coming lines) (hc : coming ≠ []) : t.ended = false :=
  Bool.eq_false_iff.2 fun he => hc (h.ended he)

/-- As long as more may come, the reader is steady. -/
theorem steady (h : t.Awaits coming lines) (he : t.ended = false) : t.reader.Steady := by
  rcases h.reader with hr | ⟨-, he', -⟩
  · exact hr
  · rw [he] at he'
    cases he'

theorem arrive {b : Bytes} (h : t.Awaits (b ++ coming) lines) (hb : b ≠ []) :
    (t.arrive b).2 = { t with arrived := t.arrived ++ b } ∧
      (t.arrive b).2.Awaits coming lines := by
  have he : t.ended = false := h.ended_of_ne_nil (by simp [hb])
  have ha : (t.arrive b).2 = { t with arrived := t.arrived ++ b } := by simp [Transport.arrive, he]
  refine ⟨ha, ?_⟩
  rw [ha]
  refine ⟨h.closed, h.cancelled, ?_, fun he' => absurd he' (by simp [he]), .inl (h.steady he)⟩
  rw [← h.bytes]
  simp [unread]

theorem endInput (h : t.Awaits [] lines) (he : t.ended = false) :
    t.endInput.Awaits [] lines where
  closed := h.closed
  cancelled := h.cancelled
  bytes := h.bytes
  ended _ := rfl
  reader := .inl (h.steady he)

end Transport.Awaits

namespace Intake

variable {limit : Nat} {P : α → Prop} {x y : Intake α} {lines : List Bytes}

/-- What has been written and has not been answered with is still to be heard. -/
structure Holds (limit : Nat) (P : α → Prop) (x : Intake α) (lines : List Bytes) : Prop where
  hears : x.speaker.dialogue.Hears limit x.closing P lines
  limit_eq : x.speaker.transport.limit = limit
  awaits : x.speaker.transport.Awaits x.coming lines

theorem holds_start {d : Dialogue α} {far : Transport}
    (h : d.Hears limit (decide (0 < far.shutdowns)) P far.written) :
    Holds limit P (start d limit far) far.written where
  hears := h
  limit_eq := rfl
  awaits := ⟨rfl, rfl, rfl, (nomatch ·), .inl (LineReader.steady_new limit)⟩

/-- Whoever waits finds the next line clean. -/
theorem Holds.head (h : Holds limit P x lines) {wait : Option Duration}
    {next : Outcome Bytes → Dialogue α} (hd : x.speaker.dialogue = .receive wait next) :
    ∀ line ∈ lines.head?, IsClean x.speaker.transport.limit line := by
  have hh := h.hears
  rw [hd] at hh
  intro line hm
  rcases hh.of_receive with ⟨line', rest, rfl, hl, -⟩ | ⟨rfl, -⟩
  · cases hm
    rw [h.limit_eq]
    exact hl
  · cases hm

/-! ## What a step preserves -/

theorem Holds.act (h : Holds limit P x lines) {e : Speaker α} (hs : x.speaker.Step e) :
    ∃ lines, Holds limit P { x with speaker := e } lines := by
  obtain ⟨⟨d, t⟩, coming, closing⟩ := x
  have hh := h.hears
  have hl : t.limit = limit := h.limit_eq
  cases hs with
  | send _ _ _ => cases hh
  | close _ _ => cases hh
  | fill _ _ _ => cases hh
  | receive hp =>
    rcases h.awaits.poll (h.head rfl) with ⟨line, rest, t', rfl, hp', hlim, ha⟩ |
      ⟨t', hp', -⟩ | ⟨t', rfl, hp', hlim, ha⟩
    all_goals
      rw [hp] at hp'
      cases hp'
    · obtain ⟨_, _, heq, -, hn⟩ | ⟨heq, -⟩ := hh.of_receive
      all_goals cases heq
      exact ⟨rest, hn, hlim.trans hl, ha⟩
    · obtain ⟨_, _, heq, -⟩ | ⟨-, -, hn⟩ := hh.of_receive
      · cases heq
      · exact ⟨[], hn, hlim.trans hl, ha⟩
  | look _ hp =>
    rcases h.awaits.poll (h.head rfl) with ⟨line, rest, t', rfl, hp', -⟩ |
      ⟨t', hp', -, -, -, -, hlim, ha⟩ | ⟨t', rfl, hp', -⟩
    all_goals
      rw [hp] at hp'
      cases hp'
    exact ⟨lines, hh, hlim.trans hl, ha⟩

theorem Holds.step (h : Holds limit P x lines) (hs : x.Step y) :
    ∃ lines, Holds limit P y lines := by
  cases hs with
  | act hs => exact h.act hs
  | @arrive b rest hb hne =>
    obtain ⟨ha, ha'⟩ := Transport.Awaits.arrive (hb ▸ h.awaits) hne
    refine ⟨lines, h.hears, ?_, ha'⟩
    dsimp only
    rw [ha]
    exact h.limit_eq
  | finish hc _ he => exact ⟨lines, h.hears, h.limit_eq, hc ▸ (hc ▸ h.awaits).endInput he⟩

/-! ## There is a step to take -/

theorem Holds.ended_or_exists_step (h : Holds limit P x lines) :
    (∃ a, x.speaker.dialogue = .done a ∧ P a) ∨ ∃ y, x.Step y := by
  obtain ⟨⟨d, t⟩, coming, closing⟩ := x
  have hh : d.Hears limit closing P lines := h.hears
  have ha : t.Awaits coming lines := h.awaits
  cases hh with
  | done hP => exact .inl ⟨_, rfl, hP⟩
  | line _ _ =>
    right
    rcases ha.poll (h.head rfl) with ⟨_, _, t', -, hp, -⟩ | ⟨t', -, -, -, -, hne, -⟩ | ⟨_, heq, -⟩
    · exact ⟨_, .act (.receive hp)⟩
    · exact ⟨_, .arrive (List.append_nil _).symm (hne (by simp))⟩
    · cases heq
  | closed hc _ =>
    right
    rcases ha.poll (h.head rfl) with ⟨_, _, t', heq, -⟩ | ⟨t', -, he, -⟩ | ⟨t', -, hp, -⟩
    · cases heq
    · have hcoming : coming = [] := (List.append_eq_nil_iff.1 ha.bytes).2
      exact ⟨_, .finish hcoming hc he⟩
    · exact ⟨_, .act (.receive hp)⟩

/-! ## Every course is finite -/

/-- The way that the bytes and the end of the stream have to go still. -/
def pending (x : Intake α) : Nat :=
  2 * x.coming.length + x.speaker.transport.arrived.length +
    if x.speaker.transport.ended then 0 else 1

/-- The dialogue has gone on, or the bytes have. -/
def After (y x : Intake α) : Prop :=
  Prod.Lex Dialogue.Rest (· < ·) (y.speaker.dialogue, y.pending) (x.speaker.dialogue, x.pending)

theorem wellFounded_after : WellFounded (@After α) :=
  InvImage.wf _ (Prod.lex ⟨_, Dialogue.wellFounded_rest⟩ Nat.lt_wfRel).wf

theorem Holds.after (h : Holds limit P x lines) (hs : x.Step y) : y.After x := by
  obtain ⟨⟨d, t⟩, coming, closing⟩ := x
  have ha : t.Awaits coming lines := h.awaits
  cases hs with
  | act hs =>
    cases hs with
    | send _ _ _ => exact .left _ _ (.send _)
    | receive _ => exact .left _ _ (.receive _)
    | close _ _ => exact .left _ _ .close
    | fill _ _ _ => exact .left _ _ (.fill _)
    | look hne hp =>
      rcases ha.poll (h.head rfl) with ⟨_, _, _, -, hp', -⟩ | ⟨t', hp', he, he', harr, -⟩ |
        ⟨_, -, hp', -⟩
      all_goals
        rw [hp] at hp'
        cases hp'
      refine .right _ ?_
      have := List.length_pos_iff.2 hne
      simp only [pending, he, he', harr, List.length_nil]
      omega
  | @arrive b rest hb hne =>
    obtain rfl : coming = b ++ rest := hb
    obtain ⟨harr, -⟩ := ha.arrive hne
    refine .right _ ?_
    have := List.length_pos_iff.2 hne
    simp only [pending, harr, List.length_append]
    omega
  | finish _ _ he =>
    refine .right _ ?_
    have he : t.ended = false := he
    simp [pending, Transport.endInput, he]

theorem Holds.leads (h : Holds limit P x lines) : x.Leads P := by
  induction x using wellFounded_after.induction generalizing lines with
  | _ x ih =>
    refine .intro h.ended_or_exists_step fun y hs => ?_
    obtain ⟨lines, h'⟩ := h.step hs
    exact ih y (h.after hs) h'

end Intake

/-- **A dialogue that hears the lines of a stream comes to its end**, in whatever pieces the bytes
arrive. -/
theorem Dialogue.Hears.leads {limit : Nat} {P : α → Prop} {d : Dialogue α} {far : Transport}
    (h : d.Hears limit (decide (0 < far.shutdowns)) P far.written) :
    (Intake.start d limit far).Leads P :=
  (Intake.holds_start h).leads

end SealedChat
