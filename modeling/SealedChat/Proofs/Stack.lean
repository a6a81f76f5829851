import Mathlib.Data.List.Basic
import SealedChat.Proofs.Channel.Kept
import SealedChat.Proofs.Dialogue.Meets
import SealedChat.Proofs.History
import SealedChat.Stack

/-!
# Closing and calling off are final

A stack is used in any way: it sends, receives and closes, wrappers are put on and taken off again,
and meanwhile anything happens outside. What has happened is a `History` of these turns.

Each wrapper remembers for itself that it was closed, and forgets it when it is replaced. This is no
more than a short cut, because a wrapper that was closed is around a line that is closed
(`Stands.remembers`), which every turn keeps. So closing a stack closes its line, whatever the
wrappers remember (`Stack.advance_close`), and nothing else does.

The first close shuts the stream down, with one exception: a line that the stream did not take when it
was sent is still in the write buffer, and the stream does not take it now either. Whether that is so
is told by the turns in front of the close (`isJammed`), because only sends touch the write buffer,
and each says what it has done (`Stands.unwritten`).

Main result: `Endpoint.closed_or_cancelled_for_good`.
-/

namespace SealedChat

open Dialogue

/-! ## Wrappers -/

/-- The wrapper remembers that it was closed. -/
def Wrapper.isClosed : Wrapper → Bool
  | box => false
  | layer _ closed => closed

namespace Stack

variable {s s' : Stack} {station station' : Station}

/-- Some wrapper remembers that it was closed. -/
def remembers (s : Stack) : Bool := s.any Wrapper.isClosed

@[simp] theorem remembers_cons (w : Wrapper) (s : Stack) :
    remembers (w :: s) = (w.isClosed || s.remembers) := rfl

@[simp] theorem moved_layers (s : Stack) : s.moved s.layers = s := by
  induction s with
  | nil => rfl
  | cons w s ih => cases w <;> simp [layers, moved, ih]

/-- Traffic is not remembered. -/
@[simp] theorem remembers_moved (s : Stack) (c : Channel) : (s.moved c).remembers = s.remembers := by
  induction s generalizing c with
  | nil => rfl
  | cons w s ih =>
    cases w with
    | box => simp [moved, ih]
    | layer l closed =>
      cases c with
      | nil => rfl
      | cons l' c => simp [moved, ih, Wrapper.isClosed]

theorem close_cons_of_closed {w : Wrapper} (h : w.isClosed = true) (s : Stack) :
    close (w :: s) = .done (.ok (), w :: s) := by
  cases w with
  | box => cases h
  | layer l closed =>
    cases h
    rfl

theorem close_cons_of_open {w : Wrapper} (h : w.isClosed = false) (s : Stack) :
    ∃ w', close (w :: s) = close s >>= fun r => .done (r.1, w' :: r.2) := by
  cases w with
  | box => exact ⟨.box, rfl⟩
  | layer l closed =>
    cases h
    exact ⟨.layer l true, rfl⟩

/-- Closing does nothing to the line if some wrapper remembers it, and closes it otherwise. -/
theorem close_eq (s : Stack) : ∃ s', s.close =
    if s.remembers then .done (.ok (), s') else .close (.done (.ok (), s')) := by
  induction s with
  | nil => exact ⟨[], rfl⟩
  | cons w s ih =>
    rw [remembers_cons]
    by_cases hw : w.isClosed = true
    · exact ⟨w :: s, by simp [close_cons_of_closed hw, hw]⟩
    · obtain ⟨s', hs⟩ := ih
      obtain ⟨w', hclose⟩ := close_cons_of_open (Bool.eq_false_iff.2 hw) s
      refine ⟨w' :: s', ?_⟩
      rw [hclose, hs, Bool.eq_false_iff.2 hw, Bool.false_or]
      split_ifs <;> rfl

/-- **Closing a stack closes its line**, if what its wrappers remember is true. -/
theorem advance_close (h : s.remembers = true → station.transport.closed = true) :
    ∃ s', s.close.advance station = (.done (.ok (), s'), station.map Transport.close) := by
  obtain ⟨s', hs⟩ := close_eq s
  refine ⟨s', ?_⟩
  rw [hs]
  split_ifs with hr
  · rw [Station.map, Transport.close_of_closed (h hr)]
    rfl
  · rfl

variable [CipherSuite]

/-! ## Traffic -/

theorem receive_eq (s : Stack) (limit : Option Duration) : s.receive limit =
    .receive limit fun o => .done ((s.layers.lift o).1, s.moved (s.layers.lift o).2) := by
  rw [receive, Channel.receive_eq]
  rfl

theorem staysOpen_send (s : Stack) (payload : Bytes) :
    (s.send payload).StaysOpen fun r => r.2.remembers = s.remembers :=
  (s.layers.staysOpen_send payload).bind fun r _ => s.remembers_moved r.2

theorem staysOpen_receive (s : Stack) (limit : Option Duration) :
    (s.receive limit).StaysOpen fun r => r.2.remembers = s.remembers :=
  (s.layers.staysOpen_receive limit).bind fun r _ => s.remembers_moved r.2

/-- A line that answers with an error is all that a stack hears. -/
theorem advance_receive {e : ChatError} (limit : Option Duration)
    (h : station.transport.poll = (some (.error e), station.transport)) :
    (s.receive limit).advance station = (.done (.error e, s), station) := by
  rw [receive_eq, Dialogue.advance, h]
  simp [Dialogue.advance]

/-- What a send does to a transport is what one line does, unless the send fails before there is a
line; such a failure is not one of the stream. -/
def Sends (t : Transport) (o : Outcome Unit) (t' : Transport) : Prop :=
  (∃ line, t.send line = (o, t')) ∨ t' = t ∧ ∃ e, o = .error e ∧ e ≠ .brokenPipe

theorem settles_channel (c : Channel) (payload : Bytes) (t : Transport) :
    (c.send payload).Settles (fun r t' => Sends t r.1 t') t := by
  induction c generalizing payload with
  | nil => exact .inl ⟨payload, rfl⟩
  | cons layer c ih =>
    rw [Channel.send_cons]
    apply (settles_ofDraw _).bind
    rintro ⟨o, layer'⟩ t' ⟨rfl, answers, hlower⟩
    cases o with
    | error e => exact .inr ⟨rfl, e, rfl, Layer.ne_brokenPipe_of_lower hlower⟩
    | ok below => exact (ih below).bind fun _ _ hr => hr

theorem settles_send (s : Stack) (payload : Bytes) (t : Transport) :
    (s.send payload).Settles (fun r t' => Sends t r.1 t') t :=
  (settles_channel s.layers payload t).bind fun _ _ hr => hr

theorem sends_of_advance {payload : Bytes} {o : Outcome Unit}
    (h : (s.send payload).advance station = (.done (o, s'), station')) :
    Sends station.transport o station'.transport := by
  obtain ⟨r, station₁, hadvance, hr⟩ := (s.settles_send payload station.transport).advance
  rw [h] at hadvance
  cases hadvance
  exact hr

/-- No payload gets through a stack whose line is closed. -/
theorem advance_send (h : station.transport.closed = true) (payload : Bytes) :
    ∃ e s' station', (s.send payload).advance station = (.done (.error e, s'), station') ∧
      station'.transport = station.transport := by
  obtain ⟨⟨o, s'⟩, station', hadvance, hr⟩ := (s.settles_send payload station.transport).advance
  rcases hr with ⟨line, hs⟩ | ⟨hs, e, he, -⟩
  · rw [Transport.send_of_closed h] at hs
    obtain ⟨ho, ht⟩ := Prod.mk.inj hs
    dsimp only at ho
    subst ho
    exact ⟨.connectionClosed, s', station', hadvance, ht.symm⟩
  · dsimp only at he
    subst he
    exact ⟨e, s', station', hadvance, hs⟩

end Stack

/-! ## Turns -/

/-- A stack and what it runs on. -/
structure Endpoint where
  stack : Stack
  station : Station

namespace Endpoint

/-- A line that nobody has used. -/
def bare (limit : Nat) (random : RandomStream) : Endpoint := ⟨[], ⟨.new limit, random⟩⟩

/-- A call of a stack and what it has returned, a change of its wrappers, or what others do. -/
inductive Turn where
  | send (payload : Bytes) (result : Outcome Unit)
  /-- With what has happened while it waited. -/
  | receive (limit : Option Duration) (meanwhile : List Outside) (result : Outcome Bytes)
  | close (result : Outcome Unit)
  | wrap (w : Wrapper)
  | unwrap
  | outside (x : Outside)

namespace Turn

def isClose : Turn → Bool
  | close _ => true
  | _ => false

/-- What others do in a turn. -/
def others : Turn → List Outside
  | receive _ meanwhile _ => meanwhile
  | outside x => [x]
  | _ => []

def cancels (u : Turn) : Bool := u.others.any Outside.isCancel

/-- Whether a line is in the write buffer after a turn that closes nothing. -/
def leaves (left : Bool) : Turn → Bool
  | send _ (.ok _) => false
  | send _ (.error e) => left || e == .brokenPipe
  | _ => left

end Turn

/-- The turns in front of the first close. -/
def beforeClose (turns : List Turn) : List Turn := turns.takeWhile fun u => !u.isClose

/-- After these turns, none of which closes, there is a line in the write buffer that the stream does
not take. -/
def isJammed (turns : List Turn) : Bool :=
  (turns.flatMap Turn.others).foldl Outside.breaks false && turns.foldl Turn.leaves false

variable {e e' : Endpoint} {turns : List Turn} {u : Turn}

theorem beforeClose_of_open (h : turns.any Turn.isClose = false) (hu : u.isClose = true) :
    beforeClose (turns ++ [u]) = turns := by
  rw [beforeClose, List.takeWhile_append_of_pos, List.takeWhile_cons_of_neg (by simp [hu]),
    List.append_nil]
  intro v hv
  simpa using List.any_eq_false.1 h v hv

theorem beforeClose_of_closed (h : turns.any Turn.isClose = true) (u : Turn) :
    beforeClose (turns ++ [u]) = beforeClose turns := by
  induction turns with
  | nil => cases h
  | cons v turns ih =>
    rw [List.any_cons, Bool.or_eq_true] at h
    rw [beforeClose, beforeClose, List.cons_append, List.takeWhile_cons, List.takeWhile_cons]
    split_ifs with hv
    · exact congrArg (v :: ·) (ih (h.resolve_left (by simpa using hv)))
    · rfl

/-- Without a send that the stream has failed, nothing is left in the write buffer. -/
theorem leaves_eq_false (h : ∀ payload, .send payload (.error .brokenPipe) ∉ turns) :
    turns.foldl Turn.leaves false = false := by
  induction turns with
  | nil => rfl
  | cons u turns ih =>
    have hu : u.leaves false = false := by
      cases u with
      | send payload o =>
        cases o with
        | ok _ => rfl
        | error error =>
          rw [Turn.leaves, Bool.false_or, beq_eq_false_iff_ne]
          rintro rfl
          exact h payload List.mem_cons_self
      | _ => rfl
    rw [List.foldl_cons, hu]
    exact ih fun payload hm => h payload (List.mem_cons_of_mem _ hm)

/-- What the turns say of the transport, and what the wrappers may remember. -/
structure Stands (turns : List Turn) (e : Endpoint) : Prop where
  remembers : e.stack.remembers = true → e.station.transport.closed = true
  closed : e.station.transport.closed = turns.any Turn.isClose
  cancelled : e.station.transport.cancelled = turns.any Turn.cancels
  broken : e.station.transport.broken = (turns.flatMap Turn.others).foldl Outside.breaks false
  unwritten : turns.any Turn.isClose = false →
    (!e.station.transport.unwritten.isEmpty) = turns.foldl Turn.leaves false
  shutdowns : e.station.transport.shutdowns =
    (turns.any Turn.isClose && !isJammed (beforeClose turns)).toNat

/-- A turn that closes nothing. -/
theorem Stands.follows (h : Stands turns e) (hu : u.isClose = false)
    (hr : e'.stack.remembers = true → e.stack.remembers = true)
    (ht : e.station.transport.Follows u.others e'.station.transport)
    (hw : (!e'.station.transport.unwritten.isEmpty) =
      u.leaves (!e.station.transport.unwritten.isEmpty)) : Stands (turns ++ [u]) e' where
  remembers h' := ht.closed.trans (h.remembers (hr h'))
  closed := by simp [ht.closed, h.closed, hu]
  cancelled := by simp [ht.cancelled, h.cancelled, Turn.cancels]
  broken := by simp [ht.broken, h.broken]
  unwritten hopen := by
    rw [List.any_append, Bool.or_eq_false_iff] at hopen
    rw [hw, h.unwritten hopen.1, List.foldl_append]
    rfl
  shutdowns := by
    have hany : (turns ++ [u]).any Turn.isClose = turns.any Turn.isClose := by simp [hu]
    rw [ht.shutdowns, h.shutdowns, hany]
    cases hc : turns.any Turn.isClose with
    | true => rw [beforeClose_of_closed hc]
    | false => rfl

/-- The first close shuts the stream down, unless it is jammed. Any other does nothing. -/
theorem Stands.close {o : Outcome Unit} {stack : Stack} (h : Stands turns e) :
    Stands (turns ++ [.close o]) ⟨stack, e.station.map Transport.close⟩ := by
  have hany : (turns ++ [Turn.close o]).any Turn.isClose = true := by simp [Turn.isClose]
  have hcancels : (turns ++ [Turn.close o]).any Turn.cancels = turns.any Turn.cancels := by
    simp [Turn.cancels, Turn.others]
  have hothers : (turns ++ [Turn.close o]).flatMap Turn.others = turns.flatMap Turn.others := by
    simp [Turn.others]
  obtain ⟨hclosed, hcancelled, hbroken⟩ := e.station.transport.close_keeps
  refine ⟨fun _ => hclosed, hclosed.trans hany.symm, ?_, ?_, ?_, ?_⟩
  · rw [hcancels]
    exact hcancelled.trans h.cancelled
  · rw [hothers]
    exact hbroken.trans h.broken
  · intro hopen
    rw [hany] at hopen
    cases hopen
  · rw [Station.map, hany]
    cases hc : e.station.transport.closed with
    | true =>
      have hpast : turns.any Turn.isClose = true := h.closed.symm.trans hc
      rw [Transport.close_of_closed hc, beforeClose_of_closed hpast, h.shutdowns, hpast]
    | false =>
      have hopen : turns.any Turn.isClose = false := h.closed.symm.trans hc
      have hstuck : e.station.transport.isStuck = isJammed turns := by
        rw [Transport.isStuck, isJammed, h.broken, h.unwritten hopen]
      rw [Transport.shutdowns_close hc, beforeClose_of_open hopen rfl, h.shutdowns, hopen, hstuck]
      simp

/-- What a send says of the write buffer. -/
theorem unwritten_of_sends {t t' : Transport} {o : Outcome Unit} (h : Stack.Sends t o t')
    (payload : Bytes) :
    (!t'.unwritten.isEmpty) = (Turn.send payload o).leaves (!t.unwritten.isEmpty) := by
  rcases h with ⟨line, hs⟩ | ⟨rfl, e, rfl, he⟩
  · rcases t.send_cases line with ⟨e, he, hrefused⟩ | ⟨-, -, hwrite⟩
    · rw [hrefused] at hs
      obtain ⟨rfl, rfl⟩ := Prod.mk.inj hs
      have hne : (e == .brokenPipe) = false := by
        rw [beq_eq_false_iff_ne]
        rintro rfl
        exact Transport.not_isRefusal_brokenPipe he
      rw [Turn.leaves, hne, Bool.or_false]
    · rw [hwrite, Transport.write_eq] at hs
      split_ifs at hs with hbroken hfull
      · obtain ⟨rfl, rfl⟩ := Prod.mk.inj hs
        have hfull := Transport.unwritten_ne_nil_of_isFull hfull
        simp [Turn.leaves, hfull]
      · obtain ⟨rfl, rfl⟩ := Prod.mk.inj hs
        simp [Turn.leaves]
      · obtain ⟨rfl, rfl⟩ := Prod.mk.inj hs
        rfl
  · rw [Turn.leaves, beq_eq_false_iff_ne.2 he, Bool.or_false]

variable [CipherSuite]

/-- The turns that are possible, and what there is after each. Wrappers are new when they are put
on. -/
inductive Takes (e : Endpoint) : Turn → Endpoint → Prop where
  | send {payload : Bytes} {o : Outcome Unit} {stack : Stack} {station : Station}
      (h : (e.stack.send payload).advance e.station = (.done (o, stack), station)) :
      Takes e (.send payload o) ⟨stack, station⟩
  | receive {limit : Option Duration} {meanwhile : List Outside} {o : Outcome Bytes}
      {stack : Stack} {station : Station}
      (h : (e.stack.receive limit).Meets e.station meanwhile (o, stack) station) :
      Takes e (.receive limit meanwhile o) ⟨stack, station⟩
  | close {o : Outcome Unit} {stack : Stack} {station : Station}
      (h : e.stack.close.advance e.station = (.done (o, stack), station)) :
      Takes e (.close o) ⟨stack, station⟩
  | wrap {w : Wrapper} (h : w.isClosed = false) : Takes e (.wrap w) { e with stack := w :: e.stack }
  | unwrap {w : Wrapper} {inner : Stack} (h : e.stack = w :: inner) :
      Takes e .unwrap { e with stack := inner }
  | outside (x : Outside) : Takes e (.outside x) { e with station := e.station.map x.apply }

/-- **Every turn keeps it.** -/
theorem Stands.turn (h : Stands turns e) (ht : Takes e u e') : Stands (turns ++ [u]) e' := by
  cases ht with
  | @send payload _ _ _ hs =>
    obtain ⟨hr, hfollows⟩ := (e.stack.staysOpen_send _).advance hs
    exact h.follows rfl hr.symm.trans hfollows
      (unwritten_of_sends (Stack.sends_of_advance hs) payload)
  | receive hs =>
    obtain ⟨hr, hfollows⟩ := (e.stack.staysOpen_receive _).meets hs
    refine h.follows rfl hr.symm.trans hfollows ?_
    rw [Stack.receive_eq] at hs
    rw [hs.unwritten_eq]
    rfl
  | close hs =>
    obtain ⟨stack, hclose⟩ := Stack.advance_close h.remembers
    rw [hs] at hclose
    cases hclose
    exact h.close
  | wrap hw => exact h.follows rfl (by simp [hw]) (.refl _) rfl
  | unwrap hstack =>
    refine h.follows rfl ?_ (.refl _) rfl
    intro hr
    simp [hstack, hr]
  | outside x =>
    refine h.follows rfl id (e.station.transport.follows_apply x) ?_
    rw [show (e.station.map x.apply).transport.unwritten = _ from
      Transport.unwritten_applyAll _ [x]]
    rfl

theorem stands {limit : Nat} {random : RandomStream} (h : History Takes (bare limit random) turns e) :
    Stands turns e := by
  have hstart : Stands [] (bare limit random) := by
    refine ⟨?_, rfl, rfl, rfl, fun _ => rfl, rfl⟩
    intro hr
    cases hr
  exact h.keeps (P := Stands) (fun _ _ _ _ hpast hu => hpast.turn hu) hstart

/-! ## All turns -/

/-- Every transfer is refused and does nothing to the transport. Closing succeeds and does nothing
either. -/
structure IsShut (e : Endpoint) : Prop where
  send : ∀ payload, ∃ error stack station,
    (e.stack.send payload).advance e.station = (.done (.error error, stack), station) ∧
      station.transport = e.station.transport
  receive : ∀ limit, (e.stack.receive limit).advance e.station =
    (.done (.error .connectionClosed, e.stack), e.station)
  close : ∃ stack, e.stack.close.advance e.station = (.done (.ok (), stack), e.station)

theorem Stands.isShut (h : Stands turns e) (hc : turns.any Turn.isClose = true) : e.IsShut := by
  have hclosed : e.station.transport.closed = true := h.closed.trans hc
  refine ⟨Stack.advance_send hclosed, ?_, ?_⟩
  · intro limit
    exact Stack.advance_receive limit (Transport.poll_of_closed hclosed)
  · obtain ⟨stack, hclose⟩ := Stack.advance_close h.remembers
    rw [Station.map, Transport.close_of_closed hclosed] at hclose
    exact ⟨stack, hclose⟩

/-- **Closing and calling off are final.** However a stack is used, wrapped and unwrapped, closing it
succeeds and closes its line. The stream is shut down once if it was ever closed, and otherwise not;
but a first close that finds a line in the write buffer which the stream does not take leaves it as it
is for good. That takes a send in front of it that the stream has failed. From the first close on
nothing gets through. If waiting was called off and the stack never closed, every receive says so at
once and leaves what has arrived; one that was waiting at that time says so too. -/
theorem closed_or_cancelled_for_good {limit : Nat} {random : RandomStream}
    (h : History Takes (bare limit random) turns e) :
    e.station.transport.shutdowns =
      (turns.any Turn.isClose && !isJammed (beforeClose turns)).toNat ∧
    ((∀ payload, .send payload (.error .brokenPipe) ∉ beforeClose turns) →
      e.station.transport.shutdowns = (turns.any Turn.isClose).toNat) ∧
    (∃ stack, e.stack.close.advance e.station =
      (.done (.ok (), stack), e.station.map Transport.close)) ∧
    (turns.any Turn.isClose = true → e.IsShut) ∧
    (turns.any Turn.isClose = false → turns.any Turn.cancels = true →
      ∀ limit, (e.stack.receive limit).advance e.station =
        (.done (.error .shutdown, e.stack), e.station)) ∧
    ∀ before limit meanwhile o after, turns = before ++ .receive limit meanwhile o :: after →
      before.any Turn.isClose = false →
      (before.any Turn.cancels || meanwhile.any Outside.isCancel) = true → o = .error .shutdown := by
  have hstands := stands h
  refine ⟨hstands.shutdowns, fun hsends => ?_, Stack.advance_close hstands.remembers,
    hstands.isShut, ?_, ?_⟩
  · rw [hstands.shutdowns, isJammed, leaves_eq_false hsends, Bool.and_false, Bool.not_false,
      Bool.and_true]
  · intro hopen hcancel limit
    have hpoll := Transport.poll_of_cancelled (hstands.closed.trans hopen)
      (hstands.cancelled.trans hcancel)
    exact Stack.advance_receive limit hpoll
  · intro before limit meanwhile o after hturns hopen hcancel
    obtain ⟨m, m', hbefore, hreceive, -⟩ := History.turn_iff.1 (hturns ▸ h)
    have hm := stands hbefore
    cases hreceive with
    | receive hr =>
      rw [Stack.receive_eq] at hr
      have heq := hr.eq_of_cancelled (hm.closed.trans hopen) (by rwa [hm.cancelled])
      simpa using congrArg Prod.fst heq

/-- A layer sends a line and hears nothing of one that has arrived, because waiting is called off. It
is closed, and replaced by another, which is closed too and then sends in vain. -/
def replacedAndClosed : List Turn :=
  [.wrap .base64, .send [104, 105] (.ok ()), .outside (.arrive [97, 71, 107, 61, 10]),
    .outside .cancel, .receive none [] (.error .shutdown), .close (.ok ()), .unwrap, .wrap .box,
    .wrap .base64, .close (.ok ()), .send [104, 105] (.error .connectionClosed)]

/-- What is left then. -/
def leftClosed (random : RandomStream) : Endpoint :=
  ⟨[.layer .base64 true, .box], ⟨{ Transport.new 64 with
    arrived := [97, 71, 107, 61, 10]
    written := [[97, 71, 107, 61]]
    closed := true
    cancelled := true
    shutdowns := 1 }, random⟩⟩

theorem history_replacedAndClosed (random : RandomStream) :
    History Takes (bare 64 random) replacedAndClosed (leftClosed random) := by
  refine .cons (.wrap rfl) ?_
  refine .cons (.send rfl) ?_
  refine .cons (.outside _) (.cons (.outside _) ?_)
  refine .cons (.receive (.ends rfl)) ?_
  refine .cons (.close rfl) ?_
  refine .cons (.unwrap rfl) ?_
  refine .cons (.wrap rfl) ?_
  refine .cons (.wrap rfl) ?_
  refine .cons (.close rfl) ?_
  exact .cons (.send rfl) (.nil _)

omit [CipherSuite] in
theorem closed_for_good_of_replaced : ∃ (suite : CipherSuite) (random : RandomStream),
    suite = .between (.zero 32) (.zero 32) ∧
    History Takes (bare 64 random) replacedAndClosed (leftClosed random) ∧
    (leftClosed random).IsShut := by
  let suite := CipherSuite.between (.zero 32) (.zero 32)
  have h := history_replacedAndClosed ⟨0, none⟩
  obtain ⟨-, -, -, hshut, -⟩ := closed_or_cancelled_for_good h
  exact ⟨suite, ⟨0, none⟩, rfl, h, hshut rfl⟩

/-- The stream goes away, a line is sent in vain, and the stack is closed. -/
def sentInVain : List Turn :=
  [.wrap .base64, .outside .sever, .send [104, 105] (.error .brokenPipe), .close (.ok ())]

omit [CipherSuite] in
/-- What is left in the write buffer keeps the stream from being shut down. -/
theorem never_shut_down : ∃ (suite : CipherSuite) (random : RandomStream) (e : Endpoint),
    suite = .between (.zero 32) (.zero 32) ∧ History Takes (bare 64 random) sentInVain e ∧
    sentInVain.any Turn.isClose = true ∧ e.station.transport.closed = true ∧
    e.station.transport.unwritten = [[97, 71, 107, 61]] ∧ e.station.transport.shutdowns = 0 := by
  let suite := CipherSuite.between (.zero 32) (.zero 32)
  have h : History Takes (bare 64 ⟨0, none⟩) sentInVain
      ⟨[.layer .base64 true], ⟨{ Transport.new 64 with
        ended := true
        broken := true
        unwritten := [[97, 71, 107, 61]]
        closed := true }, ⟨0, none⟩⟩⟩ := by
    refine .cons (.wrap rfl) (.cons (.outside _) ?_)
    refine .cons (.send rfl) ?_
    exact .cons (.close rfl) (.nil _)
  exact ⟨suite, ⟨0, none⟩, _, rfl, h, rfl, rfl, rfl, rfl⟩

end Endpoint

end SealedChat
