import SealedChat.Proofs.Dialogue.Converse

/-!
# Two ends of a line

Two dialogues, each on a transport of its own, and the bytes that are on their way between them. The
two ends go on one step at a time, in any order; what has been written sets out at any time, and
arrives in pieces of any size. No waiting is called off, and no random bytes are refused.

If the dialogues can be carried on with each other (`Dialogue.Converse`), then every course of such a
line is finite and leads to the results that they promise (`Dialogue.Converse.leads`). What carries
the proof is that at any time the bytes that have been written and not been read are those of the
lines on their way (`Line.Holds`), in each direction.
-/

namespace SealedChat

variable {α β : Type}

/-! ## Steps -/

/-- A dialogue on a transport. -/
structure Speaker (α : Type) where
  dialogue : Dialogue α
  transport : Transport

/-- One step of a dialogue on its transport. -/
inductive Speaker.Step : Speaker α → Speaker α → Prop
  | send (line : Bytes) (next : Outcome Unit → Dialogue α) (t : Transport) :
      Step ⟨.send line next, t⟩ ⟨next (t.send line).1, (t.send line).2⟩
  | receive {limit : Option Duration} {next : Outcome Bytes → Dialogue α} {t t' : Transport}
      {o : Outcome Bytes} : t.poll = (some o, t') → Step ⟨.receive limit next, t⟩ ⟨next o, t'⟩
  /-- Something has arrived, and more is needed. -/
  | look {limit : Option Duration} {next : Outcome Bytes → Dialogue α} {t t' : Transport} :
      t.arrived ≠ [] → t.poll = (none, t') →
      Step ⟨.receive limit next, t⟩ ⟨.receive limit next, t'⟩
  | close (next : Dialogue α) (t : Transport) : Step ⟨.close next, t⟩ ⟨next, t.close⟩
  | fill {n : Nat} (next : Option (Block n) → Dialogue α) (t : Transport) (b : Block n) :
      Step ⟨.fill n next, t⟩ ⟨next (some b), t⟩

/-- Both ends, and the bytes on their way to each. -/
structure Line (α β : Type) where
  left : Speaker α
  right : Speaker β
  toRight : Bytes
  toLeft : Bytes

namespace Line

/-- A line at the start of two dialogues, with new transports that read lines up to these limits. -/
def start (d : Dialogue α) (d' : Dialogue β) (l r : Nat) : Line α β :=
  ⟨⟨d, .new l⟩, ⟨d', .new r⟩, [], []⟩

/-- The same line, seen from the other end. -/
def swap (x : Line α β) : Line β α := ⟨x.right, x.left, x.toLeft, x.toRight⟩

/-- A step at the left end. -/
inductive LeftStep (x : Line α β) : Line α β → Prop
  | act {e : Speaker α} : x.left.Step e → LeftStep x { x with left := e }
  /-- What has been written sets out. -/
  | carry : x.left.transport.written ≠ [] → LeftStep x { x with
      left := ⟨x.left.dialogue, x.left.transport.carry.2⟩
      toRight := x.toRight ++ frame x.left.transport.carry.1 }
  /-- Some of the bytes on their way arrive. -/
  | arrive {b rest : Bytes} : x.toLeft = b ++ rest → b ≠ [] → LeftStep x { x with
      left := ⟨x.left.dialogue, (x.left.transport.arrive b).2⟩
      toLeft := rest }

/-- A step at either end. -/
def Step (x y : Line α β) : Prop := x.LeftStep y ∨ x.swap.LeftStep y.swap

theorem Step.right {x : Line α β} {y : Line β α} (h : x.swap.LeftStep y) : x.Step y.swap := .inr h

theorem Step.of_swap {x : Line α β} {y : Line β α} (h : x.swap.Step y) : x.Step y.swap := h.symm

/-- Both dialogues have ended, with results that have the property. -/
def Ended (P : α → β → Prop) (x : Line α β) : Prop :=
  ∃ a b, x.left.dialogue = .done a ∧ x.right.dialogue = .done b ∧ P a b

/-- **Every course of the line is finite, and leads to such results.** As long as the dialogues have
not ended, there is a step to take. -/
inductive Leads (P : α → β → Prop) : Line α β → Prop
  | intro {x : Line α β} :
      x.Ended P ∨ (∃ y, x.Step y) → (∀ y, x.Step y → Leads P y) → Leads P x

/-! ## What is on its way -/

/-- Written but not read are the bytes of these lines, which the reader finds clean. Nothing is left
in the write buffer. -/
structure Carries (sender : Transport) (wire : Bytes) (reader : Transport) (q : List Bytes) :
    Prop where
  unwritten : sender.unwritten = []
  bytes : reader.unread ++ (wire ++ frame sender.written) = frame q
  clean : ∀ line ∈ q, IsClean reader.limit line

/-- The dialogues can be carried on with each other from here. -/
structure Holds (l r : Nat) (P : α → β → Prop) (x : Line α β) (q q' : List Bytes) : Prop where
  converse : Dialogue.Converse l r P x.left.dialogue x.right.dialogue q q'
  openLeft : x.left.transport.IsOpen
  openRight : x.right.transport.IsOpen
  limitLeft : x.left.transport.limit = l
  limitRight : x.right.transport.limit = r
  toRight : Carries x.left.transport x.toRight x.right.transport q
  toLeft : Carries x.right.transport x.toLeft x.left.transport q'

variable {l r : Nat} {P : α → β → Prop} {x y : Line α β} {q q' : List Bytes}

theorem Holds.swap (h : Holds l r P x q q') : Holds r l (fun b a => P a b) x.swap q' q where
  converse := h.converse.swap
  openLeft := h.openRight
  openRight := h.openLeft
  limitLeft := h.limitRight
  limitRight := h.limitLeft
  toRight := h.toLeft
  toLeft := h.toRight

theorem holds_start {d : Dialogue α} {d' : Dialogue β} (h : Dialogue.Converse l r P d d' [] []) :
    Holds l r P (start d d' l r) [] [] where
  converse := h
  openLeft := Transport.isOpen_new l
  openRight := Transport.isOpen_new r
  limitLeft := rfl
  limitRight := rfl
  toRight := ⟨rfl, rfl, by simp⟩
  toLeft := ⟨rfl, rfl, by simp⟩

section

variable {s t t' : Transport} {wire : Bytes}

/-- A transport that takes no line from what is unread leaves everything on its way. -/
theorem Carries.keep (h : Carries s wire t q) (hu : t'.unread = t.unread)
    (hl : t'.limit = t.limit) : Carries s wire t' q where
  unwritten := h.unwritten
  bytes := by rw [hu, h.bytes]
  clean := by rw [hl]; exact h.clean

theorem Carries.send (h : Carries s wire t q) {line : Bytes} (hl : IsClean t.limit line) :
    Carries { s with written := s.written ++ (s.unwritten ++ [line]), unwritten := [] } wire t
      (q ++ [line]) where
  unwritten := rfl
  bytes := by
    rw [h.unwritten, List.nil_append, frame_append, frame_append, ← h.bytes]
    simp only [List.append_assoc]
  clean line' hm := by
    rcases List.mem_append.1 hm with hm | hm
    · exact h.clean line' hm
    · rw [List.mem_singleton.1 hm]
      exact hl

/-- A transport that has looked for a line has written as much as before. -/
theorem Carries.polled (h : Carries s wire t q) {s' : Transport} {o : Option (Outcome Bytes)}
    (hp : s.poll = (o, s')) : Carries s' wire t q where
  unwritten := (Transport.poll_keeps hp).1.trans h.unwritten
  bytes := by rw [(Transport.poll_keeps hp).2.1, h.bytes]
  clean := h.clean

theorem Carries.carry (h : Carries s wire t q) :
    Carries s.carry.2 (wire ++ frame s.carry.1) t q where
  unwritten := h.unwritten
  bytes := by
    rw [← h.bytes]
    simp [Transport.carry]
  clean := h.clean

theorem Carries.arrive (ht : t.IsOpen) {b : Bytes} (h : Carries s (b ++ wire) t q) :
    Carries s wire (t.arrive b).2 q := by
  have ha : (t.arrive b).2 = { t with arrived := t.arrived ++ b } := by
    simp [Transport.arrive, ht.ended]
  rw [ha]
  refine ⟨h.unwritten, ?_, h.clean⟩
  rw [← h.bytes]
  simp [Transport.unread]

/-- What a look at a transport finds: nothing, while the first line has not arrived, or that line. -/
theorem Carries.poll (ht : t.IsOpen) (h : Carries s wire t q) :
    (∃ t', t.poll = (none, t') ∧ t'.IsOpen ∧ t'.limit = t.limit ∧
      t'.arrived = [] ∧ Carries s wire t' q ∧ (q ≠ [] → wire ++ frame s.written ≠ [])) ∨
    ∃ line rest t', t.poll = (some (.ok line), t') ∧ q = line :: rest ∧ t'.IsOpen ∧
      t'.limit = t.limit ∧ Carries s wire t' rest := by
  cases q with
  | nil =>
    have hu : t.unread = [] := (List.append_eq_nil_iff.1 h.bytes).1
    obtain ⟨t', hp, ho, hl, -, hu', ha⟩ := Transport.poll_nil ht hu
    exact .inl ⟨t', hp, ho, hl, ha, h.keep (hu'.trans hu.symm) hl, fun hq => absurd rfl hq⟩
  | cons line rest =>
    rcases Transport.poll_line ht (h.clean line (by simp)) h.bytes with
      ⟨t', hp, ho, hl, -, hb⟩ | ⟨t', hp, ho, hl, -, hu, ha, hr⟩
    · refine .inr ⟨line, rest, t', hp, rfl, ho, hl, h.unwritten, hb, fun line' hm => ?_⟩
      rw [hl]
      exact h.clean line' (List.mem_cons_of_mem _ hm)
    · exact .inl ⟨t', hp, ho, hl, ha, h.keep hu hl, fun _ => hr⟩

end

/-! ## What a step preserves -/

/-- A step of the left dialogue takes it on, if it can be carried on with the right one. -/
theorem Holds.act (h : Holds l r P x q q') {e : Speaker α} (hs : x.left.Step e) :
    ∃ q q', Holds l r P { x with left := e } q q' := by
  obtain ⟨⟨d, t⟩, right, wire, wire'⟩ := x
  have ht : t.IsOpen := h.openLeft
  have hl : t.limit = l := h.limitLeft
  have hto : Carries t wire right.transport q := h.toRight
  have hfrom : Carries right.transport wire' t q' := h.toLeft
  cases hs with
  | send line next t =>
    obtain ⟨hclean, hc⟩ := Dialogue.Converse.of_send h.converse
    rw [Transport.send_of_isClean ht hclean]
    have hclean' : IsClean right.transport.limit line := h.limitRight.symm ▸ hclean
    exact ⟨_, _, hc, ⟨ht.closed, ht.cancelled, ht.ended, ht.broken, ht.reader⟩, h.openRight, hl,
      h.limitRight, hto.send hclean', hfrom.unwritten, hfrom.bytes, hfrom.clean⟩
  | receive hp =>
    rcases hfrom.poll ht with ⟨_, hn, -⟩ | ⟨line, rest, t', hp', rfl, ho, hlim, hc⟩
    · rw [hp] at hn
      cases hn
    · rw [hp] at hp'
      cases hp'
      exact ⟨_, _, Dialogue.Converse.of_receive h.converse, ho, h.openRight, hlim.trans hl,
        h.limitRight, hto.polled hp, hc⟩
  | look _ hp =>
    rcases hfrom.poll ht with ⟨t', hn, ho, hlim, -, hc, -⟩ | ⟨_, _, _, hp', -⟩
    · rw [hp] at hn
      cases hn
      exact ⟨_, _, h.converse, ho, h.openRight, hlim.trans hl, h.limitRight, hto.polled hp, hc⟩
    · rw [hp] at hp'
      cases hp'
  | close next t => exact absurd h.converse Dialogue.Converse.not_close
  | fill next t b =>
    exact ⟨_, _, Dialogue.Converse.of_fill h.converse b, ht, h.openRight, hl, h.limitRight, hto,
      hfrom⟩

theorem Holds.leftStep (h : Holds l r P x q q') (hs : x.LeftStep y) :
    ∃ q q', Holds l r P y q q' := by
  have ht := h.openLeft
  cases hs with
  | act hs => exact h.act hs
  | carry _ =>
    exact ⟨q, q', h.converse, ⟨ht.closed, ht.cancelled, ht.ended, ht.broken, ht.reader⟩,
      h.openRight, h.limitLeft, h.limitRight, h.toRight.carry, h.toLeft.unwritten, h.toLeft.bytes,
      h.toLeft.clean⟩
  | @arrive b rest hb _ =>
    have ha : (x.left.transport.arrive b).2 =
        { x.left.transport with arrived := x.left.transport.arrived ++ b } := by
      simp [Transport.arrive, ht.ended]
    have hto : Carries x.right.transport (b ++ rest) x.left.transport q' := hb ▸ h.toLeft
    refine ⟨q, q', h.converse, ?_, h.openRight, ?_, h.limitRight, ?_, hto.arrive ht⟩
    · rw [ha]
      exact ⟨ht.closed, ht.cancelled, ht.ended, ht.broken, ht.reader⟩
    · rw [ha]
      exact h.limitLeft
    · rw [ha]
      exact ⟨h.toRight.unwritten, h.toRight.bytes, h.toRight.clean⟩

theorem Holds.step (h : Holds l r P x q q') (hs : x.Step y) : ∃ q q', Holds l r P y q q' := by
  rcases hs with hs | hs
  · exact h.leftStep hs
  · obtain ⟨q, q', h'⟩ := h.swap.leftStep hs
    exact ⟨q', q, h'.swap⟩

/-! ## There is a step to take -/

/-- Whoever waits for a line that is on its way can go on, or the line can. -/
theorem Holds.exists_step_of_receive {limit : Option Duration}
    {next : Outcome Bytes → Dialogue α} (h : Holds l r P x q q')
    (hd : x.left.dialogue = .receive limit next) (hq : q' ≠ []) : ∃ y, x.Step y := by
  obtain ⟨⟨d, t⟩, ⟨d', s⟩, wire, wire'⟩ := x
  dsimp only at hd
  subst hd
  rcases h.toLeft.poll h.openLeft with ⟨_, -, -, -, -, -, hne⟩ | ⟨line, rest, t', hp, -⟩
  · by_cases hw : wire' = []
    · -- the line has not set out
      have hs : s.written ≠ [] := by
        intro hs
        exact hne hq (by rw [hw, hs]; rfl)
      exact ⟨_, Step.right (.carry hs)⟩
    · exact ⟨_, .inl (.arrive (List.append_nil _).symm hw)⟩
  · exact ⟨_, .inl (.act (.receive hp))⟩

theorem Holds.ended_or_exists_step (h : Holds l r P x q q') : x.Ended P ∨ ∃ y, x.Step y := by
  obtain ⟨⟨d, t⟩, ⟨d', s⟩, wire, wire'⟩ := x
  have hc := h.converse
  dsimp only at hc
  cases hc with
  | done hP => exact .inl ⟨_, _, rfl, rfl, hP⟩
  | sendLeft _ _ => exact .inr ⟨_, .inl (.act (.send _ _ _))⟩
  | sendRight _ _ => exact .inr ⟨_, Step.right (.act (.send _ _ _))⟩
  | receiveLeft _ => exact .inr (h.exists_step_of_receive rfl (by simp))
  | receiveRight _ =>
    obtain ⟨y, hy⟩ := h.swap.exists_step_of_receive rfl (by simp)
    exact .inr ⟨y.swap, Step.of_swap hy⟩
  | fillLeft _ => exact .inr ⟨_, .inl (.act (.fill _ _ (.ofPrefix _ [])))⟩
  | fillRight _ => exact .inr ⟨_, Step.right (.act (.fill _ _ (.ofPrefix _ [])))⟩

/-! ## Every course is finite -/

end Line

/-- What is left of a dialogue after its next step. -/
inductive Dialogue.Rest : Dialogue α → Dialogue α → Prop
  | send {line : Bytes} {next : Outcome Unit → Dialogue α} (o : Outcome Unit) :
      Rest (next o) (send line next)
  | receive {limit : Option Duration} {next : Outcome Bytes → Dialogue α} (o : Outcome Bytes) :
      Rest (next o) (receive limit next)
  | close {next : Dialogue α} : Rest next (close next)
  | fill {n : Nat} {next : Option (Block n) → Dialogue α} (o : Option (Block n)) :
      Rest (next o) (fill n next)

theorem Dialogue.wellFounded_rest : WellFounded (@Rest α) := by
  refine ⟨fun d => ?_⟩
  induction d with
  | done a => exact ⟨_, fun _ h => nomatch h⟩
  | send line next ih =>
    refine ⟨_, fun _ h => ?_⟩
    obtain ⟨o⟩ := h
    exact ih o
  | receive limit next ih =>
    refine ⟨_, fun _ h => ?_⟩
    obtain _ | ⟨o⟩ := h
    exact ih o
  | close next ih =>
    refine ⟨_, fun _ h => ?_⟩
    cases h
    exact ih
  | fill n next ih =>
    refine ⟨_, fun _ h => ?_⟩
    obtain _ | _ | _ | ⟨o⟩ := h
    exact ih o

/-- The way that the bytes at one end have to go still: out to the line, over it, and into a reader. -/
def Speaker.pending (e : Speaker α) : Nat :=
  3 * (frame e.transport.written).length + e.transport.arrived.length

namespace Line

variable {l r : Nat} {P : α → β → Prop} {x y : Line α β} {q q' : List Bytes}

/-- The way that all bytes have to go still. -/
def pending (x : Line α β) : Nat :=
  x.left.pending + x.right.pending + (2 * x.toRight.length + 2 * x.toLeft.length)

theorem pending_swap (x : Line α β) : x.swap.pending = x.pending := by
  simp only [pending, swap]
  omega

/-- A dialogue has gone on, or neither has and the bytes have. -/
def After (y x : Line α β) : Prop :=
  Prod.Lex Dialogue.Rest (Prod.Lex Dialogue.Rest (· < ·))
    (y.left.dialogue, y.right.dialogue, y.pending) (x.left.dialogue, x.right.dialogue, x.pending)

theorem wellFounded_after : WellFounded (@After α β) :=
  InvImage.wf _ (Prod.lex ⟨_, Dialogue.wellFounded_rest⟩
    (Prod.lex ⟨_, Dialogue.wellFounded_rest⟩ Nat.lt_wfRel)).wf

theorem length_frame_pos {lines : List Bytes} (h : lines ≠ []) : 0 < (frame lines).length := by
  obtain ⟨line, lines, rfl⟩ := List.exists_cons_of_ne_nil h
  rw [frame_cons, List.length_append, List.length_cons]
  omega

theorem Holds.rest_or_pending_lt (h : Holds l r P x q q') (hs : x.LeftStep y) :
    y.right.dialogue = x.right.dialogue ∧
      (Dialogue.Rest y.left.dialogue x.left.dialogue ∨
        y.left.dialogue = x.left.dialogue ∧ y.pending < x.pending) := by
  cases hs with
  | act hs =>
    refine ⟨rfl, ?_⟩
    obtain ⟨⟨d, t⟩, right, wire, wire'⟩ := x
    cases hs with
    | send line next t => exact .inl (.send _)
    | receive _ => exact .inl (.receive _)
    | look ha hp =>
      have hw := (Transport.poll_keeps hp).2.1
      obtain ⟨t', hn, -, -, ha', -⟩ | ⟨_, _, _, hp', -⟩ := h.toLeft.poll h.openLeft
      · rw [hp] at hn
        cases hn
        refine .inr ⟨rfl, ?_⟩
        have := List.length_pos_iff.2 ha
        simp only [pending, Speaker.pending, hw, ha', List.length_nil]
        omega
      · rw [hp] at hp'
        cases hp'
    | close next t => exact .inl .close
    | fill next t b => exact .inl (.fill _)
  | carry hw =>
    refine ⟨rfl, .inr ⟨rfl, ?_⟩⟩
    have := length_frame_pos hw
    simp only [pending, Speaker.pending, Transport.carry, Transport.seekEnd, frame_nil,
      List.length_append, List.length_nil]
    omega
  | @arrive b rest hb hne =>
    refine ⟨rfl, .inr ⟨rfl, ?_⟩⟩
    have := List.length_pos_iff.2 hne
    simp only [pending, Speaker.pending, Transport.arrive, h.openLeft.ended, hb,
      List.length_append]
    simp only [Bool.false_eq_true, if_false, List.length_append]
    omega

theorem Holds.after (h : Holds l r P x q q') (hs : x.Step y) : y.After x := by
  rcases hs with hs | hs
  · obtain ⟨hr, hl | ⟨hl, hp⟩⟩ := h.rest_or_pending_lt hs
    · exact .left _ _ hl
    · rw [After, hl, hr]
      exact .right _ (.right _ hp)
  · obtain ⟨hl, hr | ⟨hr, hp⟩⟩ := h.swap.rest_or_pending_lt hs
    · rw [After, show y.left.dialogue = x.left.dialogue from hl]
      exact .right _ (.left _ _ hr)
    · rw [After, show y.left.dialogue = x.left.dialogue from hl,
        show y.right.dialogue = x.right.dialogue from hr]
      rw [pending_swap, pending_swap] at hp
      exact .right _ (.right _ hp)

theorem Holds.leads (h : Holds l r P x q q') : x.Leads P := by
  induction x using wellFounded_after.induction generalizing q q' with
  | _ x ih =>
    refine .intro h.ended_or_exists_step fun y hs => ?_
    obtain ⟨q, q', h'⟩ := h.step hs
    exact ih y (h.after hs) h'

end Line

/-- **Dialogues that can be carried on with each other come to their ends** on a line, in whatever
order the two ends go on and in whatever pieces the bytes arrive. -/
theorem Dialogue.Converse.leads {l r : Nat} {P : α → β → Prop} {d : Dialogue α} {d' : Dialogue β}
    (h : Converse l r P d d' [] []) : (Line.start d d' l r).Leads P :=
  (Line.holds_start h).leads

end SealedChat
