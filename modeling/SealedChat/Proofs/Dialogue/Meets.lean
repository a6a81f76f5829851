import SealedChat.Proofs.Dialogue.Open
import SealedChat.Proofs.Transport
import SealedChat.Wire.Station

/-!
# Dialogues and what happens outside

A dialogue runs on a station, and while it waits other things happen to the transport: bytes arrive,
the stream goes away, somebody calls the waiting off (`Dialogue.Meets`).

Nothing outside closes a transport, and neither does a dialogue that stays open
(`Dialogue.StaysOpen.meets`). A dialogue that has to wait for nothing comes to its end at once, and
what is known of that end, whatever is drawn, is a matter of the transport alone
(`Dialogue.Settles.advance`).
-/

namespace SealedChat

/-- What others do to a transport. -/
inductive Outside where
  | arrive (b : Bytes)
  | endInput
  | sever
  /-- The stream stops taking writes. -/
  | jam
  /-- The stream takes writes again. -/
  | clear
  | carry
  /-- Waiting is called off. -/
  | cancel

namespace Outside

def apply : Outside → Transport → Transport
  | arrive b, t => (t.arrive b).2
  | endInput, t => t.endInput
  | sever, t => t.sever
  | jam, t => { t with broken := true }
  | clear, t => { t with broken := false }
  | carry, t => t.carry.2
  | cancel, t => t.cancel

def applyAll (xs : List Outside) (t : Transport) : Transport := xs.foldl (fun t x => x.apply t) t

def isCancel : Outside → Bool
  | cancel => true
  | _ => false

/-- Whether the stream takes no writes afterwards. -/
def breaks (broken : Bool) : Outside → Bool
  | sever | jam => true
  | clear => false
  | _ => broken

end Outside

/-! ## Transports -/

namespace Transport

variable {t t' t'' : Transport}

/-- One has come from the other while this happened outside, and it was not closed meanwhile. -/
structure Follows (t : Transport) (xs : List Outside) (t' : Transport) : Prop where
  closed : t'.closed = t.closed
  shutdowns : t'.shutdowns = t.shutdowns
  cancelled : t'.cancelled = (t.cancelled || xs.any Outside.isCancel)
  broken : t'.broken = xs.foldl Outside.breaks t.broken

theorem Follows.refl (t : Transport) : t.Follows [] t :=
  ⟨rfl, rfl, (Bool.or_false _).symm, rfl⟩

theorem Follows.trans {xs ys : List Outside} (h : t.Follows xs t') (h' : t'.Follows ys t'') :
    t.Follows (xs ++ ys) t'' :=
  ⟨h'.closed.trans h.closed, h'.shutdowns.trans h.shutdowns, by
    rw [h'.cancelled, h.cancelled, Bool.or_assoc, List.any_append], by
    rw [h'.broken, h.broken, List.foldl_append]⟩

theorem follows_send (t : Transport) (line : Bytes) : t.Follows [] (t.send line).2 := by
  obtain ⟨unwritten, written, hs⟩ := t.exists_send line
  rw [hs]
  exact ⟨rfl, rfl, (Bool.or_false _).symm, rfl⟩

theorem follows_poll (t : Transport) : t.Follows [] t.poll.2 := by
  rw [poll]
  split_ifs <;> exact ⟨rfl, rfl, (Bool.or_false _).symm, rfl⟩

theorem follows_apply (t : Transport) (x : Outside) : t.Follows [x] (x.apply t) := by
  cases x with
  | arrive b =>
    rw [Outside.apply, arrive]
    split_ifs <;> exact ⟨rfl, rfl, (Bool.or_false _).symm, rfl⟩
  | cancel => exact ⟨rfl, rfl, (Bool.or_true _).symm, rfl⟩
  | _ => exact ⟨rfl, rfl, (Bool.or_false _).symm, rfl⟩

theorem follows_applyAll (t : Transport) (xs : List Outside) :
    t.Follows xs (Outside.applyAll xs t) := by
  induction xs generalizing t with
  | nil => exact .refl t
  | cons x xs ih => exact (t.follows_apply x).trans (ih (x.apply t))

/-- Nothing outside touches the write buffer. -/
theorem unwritten_applyAll (t : Transport) (xs : List Outside) :
    (Outside.applyAll xs t).unwritten = t.unwritten := by
  induction xs generalizing t with
  | nil => rfl
  | cons x xs ih =>
    have hx : (x.apply t).unwritten = t.unwritten := by
      cases x with
      | arrive b =>
        rw [Outside.apply, arrive]
        split_ifs <;> rfl
      | _ => rfl
    exact (ih (x.apply t)).trans hx

/-- A transport that is closed refuses lines and answers nothing else. -/
theorem send_of_closed (h : t.closed = true) (line : Bytes) :
    t.send line = (.error .connectionClosed, t) := if_pos h

theorem poll_of_closed (h : t.closed = true) : t.poll = (some (.error .connectionClosed), t) :=
  if_pos h

theorem poll_of_cancelled (h : t.closed = false) (hc : t.cancelled = true) :
    t.poll = (some (.error .shutdown), t) := by
  rw [poll, if_neg (by simp [h]), if_pos hc]

theorem close_of_closed (h : t.closed = true) : t.close = t := if_pos h

/-- Closing leaves a transport closed, and all else that is asked here as it was. -/
theorem close_keeps (t : Transport) :
    t.close.closed = true ∧ t.close.cancelled = t.cancelled ∧ t.close.broken = t.broken := by
  by_cases h : t.closed = true
  · rw [close_of_closed h]
    exact ⟨h, rfl, rfl⟩
  · rw [close_of_open (Bool.eq_false_iff.2 h)]
    split_ifs <;> exact ⟨rfl, rfl, rfl⟩

theorem shutdowns_close (h : t.closed = false) :
    t.close.shutdowns = t.shutdowns + (!t.isStuck).toNat := by
  rw [close_of_open h]
  split_ifs with hs <;> simp [hs]

end Transport

/-! ## Dialogues -/

namespace Dialogue

variable {α β : Type} {P : α → Prop} {Q : β → Prop} {d d' : Dialogue α} {s s' : Station} {a : α}
  {meanwhile : List Outside}

/-- The dialogue comes to this end, with what has happened outside while it waited. -/
inductive Meets : Dialogue α → Station → List Outside → α → Station → Prop where
  | ends {d : Dialogue α} {s s' : Station} {a : α} (h : d.advance s = (.done a, s')) :
      Meets d s [] a s'
  /-- After some of it the line is asked again. -/
  | waits {d : Dialogue α} {s s' s'' : Station} {a : α} {limit : Option Duration}
      {next : Outcome Bytes → Dialogue α} {later : List Outside}
      (h : d.advance s = (.receive limit next, s')) (now : List Outside)
      (rest : Meets (.receive limit next) (s'.map (Outside.applyAll now)) later a s'') :
      Meets d s (now ++ later) a s''
  | timesOut {d : Dialogue α} {s s' s'' : Station} {a : α} {limit : Duration}
      {next : Outcome Bytes → Dialogue α} {later : List Outside}
      (h : d.advance s = (.receive (some limit) next, s'))
      (rest : Meets (next (.error .timeout)) s' later a s'') : Meets d s later a s''

/-! ## While the line is open -/

theorem StaysOpen.advance (h : d.StaysOpen P) (hd : d.advance s = (d', s')) :
    d'.StaysOpen P ∧ s.transport.Follows [] s'.transport := by
  induction d generalizing s with
  | done a =>
    cases hd
    exact ⟨h, .refl _⟩
  | close => exact h.elim
  | send line next ih =>
    obtain ⟨h', hs⟩ := ih _ (h _) hd
    exact ⟨h', (s.transport.follows_send line).trans hs⟩
  | receive limit next ih =>
    have hpoll := s.transport.follows_poll
    rw [Dialogue.advance] at hd
    rcases hp : s.transport.poll with ⟨_ | o, t⟩
    · rw [hp] at hd hpoll
      dsimp only at hd
      split_ifs at hd with hlimit
      · obtain ⟨h', hs⟩ := ih _ (h _) hd
        exact ⟨h', hpoll.trans hs⟩
      · cases hd
        exact ⟨h, hpoll⟩
    · rw [hp] at hd hpoll
      obtain ⟨h', hs⟩ := ih o (h o) hd
      exact ⟨h', hpoll.trans hs⟩
  | fill n next ih =>
    obtain ⟨h', hs⟩ := ih (s.random.fill n).1 (s := { s with random := (s.random.fill n).2 }) (h _) hd
    exact ⟨h', hs⟩

/-- **A dialogue that stays open closes nothing**, whatever happens meanwhile. -/
theorem StaysOpen.meets (h : d.StaysOpen P) (hd : d.Meets s meanwhile a s') :
    P a ∧ s.transport.Follows meanwhile s'.transport := by
  induction hd with
  | ends hadvance => exact h.advance hadvance
  | waits hadvance now _ ih =>
    obtain ⟨h', hs⟩ := h.advance hadvance
    obtain ⟨ha, hs'⟩ := ih h'
    exact ⟨ha, hs.trans ((Transport.follows_applyAll _ now).trans hs')⟩
  | timesOut hadvance _ ih =>
    obtain ⟨h', hs⟩ := h.advance hadvance
    obtain ⟨ha, hs'⟩ := ih (h' _)
    exact ⟨ha, hs.trans hs'⟩

/-! ## One wait -/

section

variable {f : Outcome Bytes → α} {limit limit' : Option Duration}
  {next : Outcome Bytes → Dialogue α}

theorem advance_receive_eq_receive
    (h : (receive limit fun o => done (f o)).advance s = (receive limit' next, s')) :
    limit' = limit ∧ (next = fun o => done (f o)) ∧ s.transport.poll = (none, s'.transport) := by
  rw [Dialogue.advance] at h
  rcases hp : s.transport.poll with ⟨_ | o, t⟩
  · rw [hp] at h
    dsimp only at h
    split_ifs at h with hlimit
    · cases h
    · cases h
      exact ⟨rfl, rfl, rfl⟩
  · rw [hp] at h
    cases h

/-- **A wait that is called off says so**, whether that has happened before or meanwhile. -/
theorem Meets.eq_of_cancelled
    (h : (receive limit fun o => done (f o)).Meets s meanwhile a s')
    (hopen : s.transport.closed = false)
    (hc : (s.transport.cancelled || meanwhile.any Outside.isCancel) = true) :
    a = f (.error .shutdown) := by
  generalize hd : (receive limit fun o => done (f o)) = d at h
  induction h generalizing limit with
  | ends hadvance =>
    subst hd
    rw [Dialogue.advance, Transport.poll_of_cancelled hopen (by simpa using hc)] at hadvance
    cases hadvance
    rfl
  | @waits _ s s₁ _ _ _ _ _ hadvance now _ ih =>
    subst hd
    obtain ⟨hlimit, hnext, hpoll⟩ := advance_receive_eq_receive hadvance
    subst hlimit hnext
    have hfollows : s.transport.Follows [] s₁.transport := by
      simpa [hpoll] using s.transport.follows_poll
    have hnow := hfollows.trans (Transport.follows_applyAll s₁.transport now)
    refine ih (hnow.closed.trans hopen) ?_ rfl
    rw [Station.map, hnow.cancelled, List.nil_append, Bool.or_assoc, ← List.any_append]
    exact hc
  | timesOut hadvance rest =>
    subst hd
    obtain ⟨-, hnext, hpoll⟩ := advance_receive_eq_receive hadvance
    subst hnext
    cases rest with
    | ends =>
      rw [Transport.poll_of_cancelled hopen (by simpa using hc)] at hpoll
      cases hpoll
    | waits h => cases h
    | timesOut h => cases h

/-- **A wait leaves the write buffer alone.** -/
theorem Meets.unwritten_eq (h : (receive limit fun o => done (f o)).Meets s meanwhile a s') :
    s'.transport.unwritten = s.transport.unwritten := by
  generalize hd : (receive limit fun o => done (f o)) = d at h
  induction h generalizing limit with
  | @ends _ s _ _ hadvance =>
    subst hd
    rw [Dialogue.advance] at hadvance
    rcases hp : s.transport.poll with ⟨_ | o, t⟩
    · rw [hp] at hadvance
      dsimp only at hadvance
      split_ifs at hadvance <;> cases hadvance
      exact (Transport.poll_keeps hp).1
    · rw [hp] at hadvance
      cases hadvance
      exact (Transport.poll_keeps hp).1
  | waits hadvance now _ ih =>
    subst hd
    obtain ⟨hlimit, hnext, hpoll⟩ := advance_receive_eq_receive hadvance
    subst hlimit hnext
    exact (ih rfl).trans ((Transport.unwritten_applyAll _ now).trans (Transport.poll_keeps hpoll).1)
  | timesOut hadvance rest =>
    subst hd
    obtain ⟨-, hnext, hpoll⟩ := advance_receive_eq_receive hadvance
    subst hnext
    cases rest with
    | ends hend =>
      cases hend
      exact (Transport.poll_keeps hpoll).1
    | waits h => cases h
    | timesOut h => cases h

end

/-! ## Without a wait -/

/-- On this transport the dialogue comes to its end without a wait, and whatever is drawn, this is
known of the end. -/
def Settles (R : α → Transport → Prop) : Dialogue α → Transport → Prop
  | done a, t => R a t
  | send line next, t => Settles R (next (t.send line).1) (t.send line).2
  | receive _ next, t => ∃ o t', t.poll = (some o, t') ∧ Settles R (next o) t'
  | close next, t => Settles R next t.close
  | fill _ next, t => ∀ o, Settles R (next o) t

section

variable {R : α → Transport → Prop} {S : β → Transport → Prop} {t : Transport}

theorem Settles.bind {x : Dialogue α} {f : α → Dialogue β} (h : x.Settles R t)
    (hf : ∀ a t', R a t' → (f a).Settles S t') : (x >>= f).Settles S t := by
  induction x generalizing t with
  | done a => exact hf a t h
  | send line next ih => exact ih _ h
  | receive limit next ih =>
    obtain ⟨o, t', hp, h'⟩ := h
    exact ⟨o, t', hp, ih o h'⟩
  | close next ih => exact ih h
  | fill n next ih => exact fun o => ih o (h o)

theorem Settles.mono {R' : α → Transport → Prop} {x : Dialogue α} (h : x.Settles R t)
    (hR : ∀ a t', R a t' → R' a t') : x.Settles R' t := by
  induction x generalizing t with
  | done a => exact hR a t h
  | send line next ih => exact ih _ h
  | receive limit next ih =>
    obtain ⟨o, t', hp, h'⟩ := h
    exact ⟨o, t', hp, ih o h'⟩
  | close next ih => exact ih h
  | fill n next ih => exact fun o => ih o (h o)

theorem settles_ofDraw (d : Draw α) :
    (ofDraw d).Settles (fun a t' => t' = t ∧ ∃ answers, d.Runs answers a) t := by
  induction d with
  | done a => exact ⟨rfl, [], .done a⟩
  | fill n next ih =>
    intro o
    refine (ih o).mono ?_
    rintro a t' ⟨rfl, answers, h⟩
    exact ⟨rfl, _, .fill o h⟩

/-- **What is known of the end**, the end has. -/
theorem Settles.advance (h : d.Settles R s.transport) :
    ∃ a s', d.advance s = (.done a, s') ∧ R a s'.transport := by
  induction d generalizing s with
  | done a => exact ⟨a, s, rfl, h⟩
  | send line next ih => exact ih _ (s := { s with transport := (s.transport.send line).2 }) h
  | receive limit next ih =>
    obtain ⟨o, t', hp, h'⟩ := h
    rw [Dialogue.advance, hp]
    exact ih o (s := { s with transport := t' }) h'
  | close next ih => exact ih (s := s.map Transport.close) h
  | fill n next ih =>
    exact ih _ (s := { s with random := (s.random.fill n).2 }) (h (s.random.fill n).1)

end

end Dialogue

end SealedChat
