import Mathlib.Logic.Function.Basic
import SealedChat.Proofs.Handshake.Calls

/-!
# Agreement

Any number of handshakes run side by side, and somebody else routes their messages. A text may be
dropped, kept back, handed over twice, handed to a side that it was not meant for, or replayed long
after its handshake is over; only making up a text is out of reach.

**The state** (`Network`). Every side that is ever used, as its machine and the returns of its calls
that succeeded. A side that has not been called yet stands for one that will be made later.

**Moves.** One call of one side. The text of a call encodes a message that some side has returned
(`Network.Knows`), a reply is made to the challenge that the responder itself has heard, and random
bytes may be any, or missing.

**The invariant** (`Network.Inv`). The returns of a side go with its phase, and whatever a side
believes to have heard was said (`Initiator.Act.Caused`, `Responder.Act.Caused`).

As long as no two initiators send one challenge and no two responders answer with one, both sides
then agree about who has talked to whom and about the secrets: `Network.agreement`.
-/

namespace SealedChat.Handshake

/-! ## Networks -/

/-- All sides, the initiators numbered by `ι` and the responders by `ρ`. -/
structure Network (ι ρ : Type) where
  initiators : ι → Party Initiator Initiator.Act
  responders : ρ → Party Responder Responder.Act

namespace Network

variable {ι ρ : Type}

/-- Nobody has been called. -/
structure IsNew (n : Network ι ρ) : Prop where
  initiators : ∀ i, ∃ name, Initiator.new name = .ok (n.initiators i).machine
  responders : ∀ r, (n.responders r).machine = .new
  acts : (∀ i, (n.initiators i).acts = []) ∧ ∀ r, (n.responders r).acts = []

/-- Some side has returned the message. -/
inductive Produced (n : Network ι ρ) : Message → Prop where
  | sent {i : ι} {m : Message} : .sent m ∈ (n.initiators i).acts → Produced n m
  | accepted {i : ι} {s : Secrets} {m : Message} :
      .accepted s m ∈ (n.initiators i).acts → Produced n m
  | answered {r : ρ} {s : Secrets} {m : Message} :
      .answered s m ∈ (n.responders r).acts → Produced n m

/-- The texts that can be handed to anybody. -/
def Knows (n : Network ι ρ) (text : String) : Prop := ∃ m, n.Produced m ∧ text = m.encode

/-- The challenges that a responder has been told. -/
def Given (n : Network ι ρ) (r : ρ) (c : Challenge) : Prop :=
  ∃ name, .heard name c ∈ (n.responders r).acts

variable [DecidableEq ι] [DecidableEq ρ]

def setInitiator (n : Network ι ρ) (i : ι) (p : Party Initiator Initiator.Act) : Network ι ρ :=
  { n with initiators := Function.update n.initiators i p }

def setResponder (n : Network ι ρ) (r : ρ) (p : Party Responder Responder.Act) : Network ι ρ :=
  { n with responders := Function.update n.responders r p }

/-- One call of one side. -/
inductive Moves (n : Network ι ρ) : Network ι ρ → Prop where
  | initiator (i : ι) {act : Option Initiator.Act} {m : Initiator}
      (h : Initiator.Call n.Knows (n.initiators i).machine act m) :
      Moves n (n.setInitiator i ((n.initiators i).after act m))
  | responder (r : ρ) {act : Option Responder.Act} {m : Responder}
      (h : Responder.Call n.Knows (n.Given r) (n.responders r).machine act m) :
      Moves n (n.setResponder r ((n.responders r).after act m))

inductive Reachable : Network ι ρ → Prop where
  | new {n : Network ι ρ} (h : n.IsNew) : Reachable n
  | move {n n' : Network ι ρ} (h : Reachable n) (hm : n.Moves n') : Reachable n'

end Network

/-! ## The invariant -/

/-- Nothing that has been returned is taken back. -/
structure Network.Extends {ι ρ : Type} (n n' : Network ι ρ) : Prop where
  identity : ∀ i, (n'.initiators i).machine.identity = (n.initiators i).machine.identity
  initiators : ∀ i, (n.initiators i).acts ⊆ (n'.initiators i).acts
  responders : ∀ r, (n.responders r).acts ⊆ (n'.responders r).acts

/-- The secrets and the challenges of a reply that was believed have been sent. -/
def Initiator.Act.Caused {ι ρ : Type} (n : Network ι ρ) (i : ι) : Initiator.Act → Prop
  | .sent _ => True
  | .accepted s m => ∃ ca cb r, m = .confirm cb ∧
      .sent (.authenticate (n.initiators i).machine.identity ca) ∈ (n.initiators i).acts ∧
      .answered s (.accept ca cb s) ∈ (n.responders r).acts

/-- Who was heard has spoken, and who was believed has returned the challenge. -/
def Responder.Act.Caused {ι ρ : Type} (n : Network ι ρ) (r : ρ) : Responder.Act → Prop
  | .heard name c => ∃ i, .sent (.authenticate name c) ∈ (n.initiators i).acts
  | .answered _ _ => True
  | .confirmed _ => ∃ ca cb s s' i, .answered s (.accept ca cb s) ∈ (n.responders r).acts ∧
      .accepted s' (.confirm cb) ∈ (n.initiators i).acts

namespace Network

variable {ι ρ : Type} {n n' : Network ι ρ}

structure Inv (n : Network ι ρ) : Prop where
  valid : ∀ i, Principal.IsValid (n.initiators i).machine.identity
  initiator : ∀ i, Initiator.Log (n.initiators i).machine.identity (n.initiators i).machine.phase
    (n.initiators i).acts
  responder : ∀ r, Responder.Log (n.responders r).machine.declared (n.responders r).machine.phase
    (n.responders r).acts
  initiatorActs : ∀ i, ∀ a ∈ (n.initiators i).acts, a.Caused n i
  responderActs : ∀ r, ∀ a ∈ (n.responders r).acts, a.Caused n r

theorem Extends.caused_initiator (he : n.Extends n') {i : ι} {a : Initiator.Act}
    (h : a.Caused n i) : a.Caused n' i := by
  cases a with
  | sent m => trivial
  | accepted s m =>
    obtain ⟨ca, cb, r, hm, hs, hr⟩ := h
    exact ⟨ca, cb, r, hm, he.identity i ▸ he.initiators i hs, he.responders r hr⟩

theorem Extends.caused_responder (he : n.Extends n') {r : ρ} {a : Responder.Act}
    (h : a.Caused n r) : a.Caused n' r := by
  cases a with
  | heard name c =>
    obtain ⟨i, hi⟩ := h
    exact ⟨i, he.initiators i hi⟩
  | answered s m => trivial
  | confirmed name =>
    obtain ⟨ca, cb, s, s', i, hr, hi⟩ := h
    exact ⟨ca, cb, s, s', i, he.responders r hr, he.initiators i hi⟩

/-! ### What a known text means -/

theorem Inv.isValid (h : n.Inv) {m : Message} (hm : n.Produced m) : m.IsValid := by
  cases hm with
  | @sent i _ hm =>
    obtain ⟨c, rfl⟩ := (h.initiator i).of_sent hm
    exact h.valid i
  | @accepted i _ _ hm =>
    obtain ⟨cb, _, rfl, -⟩ := (h.initiator i).of_accepted hm
    trivial
  | @answered r _ _ hm =>
    obtain ⟨_, _, _, rfl, -⟩ := (h.responder r).of_answered hm
    trivial

theorem Inv.produced_of_knows (h : n.Inv) {m : Message} (hv : m.IsValid) (hk : n.Knows m.encode) :
    n.Produced m := by
  obtain ⟨m', hp, he⟩ := hk
  rwa [Message.encode_inj hv (h.isValid hp) he]

theorem Inv.sent_of_knows (h : n.Inv) {name : String} {c : Challenge}
    (hv : Principal.IsValid name) (hk : n.Knows (Message.authenticate name c).encode) :
    ∃ i, .sent (.authenticate name c) ∈ (n.initiators i).acts := by
  cases h.produced_of_knows (m := .authenticate name c) hv hk with
  | @sent i _ hm => exact ⟨i, hm⟩
  | @accepted i _ _ hm =>
    obtain ⟨_, _, hm, -⟩ := (h.initiator i).of_accepted hm
    cases hm
  | @answered r _ _ hm =>
    obtain ⟨_, _, _, hm, -⟩ := (h.responder r).of_answered hm
    cases hm

theorem Inv.answered_of_knows (h : n.Inv) {ca cb : Challenge} {s : Secrets}
    (hk : n.Knows (Message.accept ca cb s).encode) :
    ∃ r, .answered s (.accept ca cb s) ∈ (n.responders r).acts := by
  cases h.produced_of_knows (m := .accept ca cb s) trivial hk with
  | @sent i _ hm =>
    obtain ⟨_, hm⟩ := (h.initiator i).of_sent hm
    cases hm
  | @accepted i _ _ hm =>
    obtain ⟨_, _, hm, -⟩ := (h.initiator i).of_accepted hm
    cases hm
  | @answered r _ _ hm =>
    obtain ⟨_, _, _, he, -⟩ := (h.responder r).of_answered hm
    cases he
    exact ⟨r, hm⟩

theorem Inv.accepted_of_knows (h : n.Inv) {text : String} {cb : Challenge} (hk : n.Knows text)
    (hp : Message.parseConfirm text = .ok cb) :
    ∃ i s, .accepted s (.confirm cb) ∈ (n.initiators i).acts := by
  obtain ⟨m, hm, rfl⟩ := hk
  obtain rfl := Message.eq_confirm_of_parseConfirm hp
  cases hm with
  | @sent i _ hm =>
    obtain ⟨_, hm⟩ := (h.initiator i).of_sent hm
    cases hm
  | @accepted i s _ hm => exact ⟨i, s, hm⟩
  | @answered r _ _ hm =>
    obtain ⟨_, _, _, hm, -⟩ := (h.responder r).of_answered hm
    cases hm

/-! ### Every call preserves it -/

theorem Inv.caused_of_call (h : n.Inv) {i : ι} {act : Option Initiator.Act} {m : Initiator}
    (hc : Initiator.Call n.Knows (n.initiators i).machine act m) : ∀ a ∈ act, a.Caused n i := by
  cases hc with
  | startWith c => simp [Initiator.Act.Caused]
  | start _ => simp [Initiator.Act.Caused]
  | @onReply text hk =>
    rcases Initiator.onReply_cases (n.initiators i).machine text with
      ⟨ca, cb, s, hp, rfl, hr⟩ | ⟨e, hr⟩
    · have hl := h.initiator i
      rw [hp] at hl
      obtain ⟨r, hs⟩ := h.answered_of_knows hk
      rw [hr]
      rintro a ⟨⟩
      exact ⟨ca, cb, r, rfl, hl.sent_of_phase, hs⟩
    · rw [hr]
      rintro a ⟨⟩

theorem Inv.caused_of_responderCall (h : n.Inv) {r : ρ} {act : Option Responder.Act} {m : Responder}
    (hc : Responder.Call n.Knows (n.Given r) (n.responders r).machine act m) :
    ∀ a ∈ act, a.Caused n r := by
  cases hc with
  | @onAuthenticate text hk =>
    rcases Responder.onAuthenticate_cases (n.responders r).machine text with
      ⟨name, c, -, -, hv, rfl, hr⟩ | ⟨e, hr⟩
    · rw [hr]
      rintro a ⟨⟩
      exact h.sent_of_knows hv hk
    · rw [hr]
      rintro a ⟨⟩
  | reply _ _ =>
    intro a ha
    obtain ⟨_, _, rfl⟩ := Option.map_eq_some_iff.1 ha
    trivial
  | @onConfirm text hk =>
    rcases Responder.onConfirm_cases (n.responders r).machine text with
      ⟨name, cb, hp, -, ht, hr⟩ | ⟨e, hr⟩
    · have hl := h.responder r
      rw [hp] at hl
      obtain ⟨ca, s, hs⟩ := hl.answered_of_phase
      obtain ⟨i, s', hi⟩ := h.accepted_of_knows hk ht
      rw [hr]
      rintro a ⟨⟩
      exact ⟨ca, cb, s, s', i, hs, hi⟩
    · rw [hr]
      rintro a ⟨⟩

theorem IsNew.inv (h : n.IsNew) : n.Inv where
  valid i := by
    obtain ⟨name, hi⟩ := h.initiators i
    obtain ⟨hv, he⟩ := Initiator.new_eq_ok_iff.1 hi
    rwa [he]
  initiator i := by
    obtain ⟨name, hi⟩ := h.initiators i
    rw [(Initiator.new_eq_ok_iff.1 hi).2, h.acts.1]
    exact .init
  responder r := by
    rw [h.responders, h.acts.2]
    exact .init
  initiatorActs i := by simp [h.acts.1]
  responderActs r := by simp [h.acts.2]

section

variable [DecidableEq ι]

theorem extends_setInitiator {i : ι} {act : Option Initiator.Act} {m : Initiator}
    (hm : m.identity = (n.initiators i).machine.identity) :
    n.Extends (n.setInitiator i ((n.initiators i).after act m)) where
  identity j := by
    by_cases hj : j = i
    · subst hj
      simpa [setInitiator, Party.after] using hm
    · simp [setInitiator, hj]
  initiators j := by
    by_cases hj : j = i
    · subst hj
      simp [setInitiator, Party.after]
    · simp [setInitiator, hj]
  responders _ := List.Subset.refl _

theorem Inv.initiatorCall (h : n.Inv) {i : ι} {act : Option Initiator.Act} {m : Initiator}
    (hc : Initiator.Call n.Knows (n.initiators i).machine act m) :
    (n.setInitiator i ((n.initiators i).after act m)).Inv := by
  have he : n.Extends (n.setInitiator i ((n.initiators i).after act m)) :=
    extends_setInitiator hc.identity_eq
  refine ⟨fun j => he.identity j ▸ h.valid j, fun j => ?_, h.responder, fun j a ha => ?_,
    fun r a ha => he.caused_responder (h.responderActs r a ha)⟩
  · by_cases hj : j = i
    · subst hj
      simpa [setInitiator, Party.after] using (h.initiator j).call hc
    · simpa [setInitiator, hj] using h.initiator j
  · refine he.caused_initiator ?_
    by_cases hj : j = i
    · subst hj
      simp only [setInitiator, Party.after, Function.update_self, List.mem_append,
        Option.mem_toList] at ha
      exact ha.elim (h.caused_of_call hc a) (h.initiatorActs j a)
    · simp only [setInitiator, Function.update_of_ne hj] at ha
      exact h.initiatorActs j a ha

end

section

variable [DecidableEq ρ]

theorem extends_setResponder {r : ρ} {act : Option Responder.Act} {m : Responder} :
    n.Extends (n.setResponder r ((n.responders r).after act m)) where
  identity _ := rfl
  initiators _ := List.Subset.refl _
  responders j := by
    by_cases hj : j = r
    · subst hj
      simp [setResponder, Party.after]
    · simp [setResponder, hj]

theorem Inv.responderCall (h : n.Inv) {r : ρ} {act : Option Responder.Act} {m : Responder}
    (hc : Responder.Call n.Knows (n.Given r) (n.responders r).machine act m) :
    (n.setResponder r ((n.responders r).after act m)).Inv := by
  have he : n.Extends (n.setResponder r ((n.responders r).after act m)) := extends_setResponder
  refine ⟨h.valid, h.initiator, fun j => ?_,
    fun i a ha => he.caused_initiator (h.initiatorActs i a ha), fun j a ha => ?_⟩
  · by_cases hj : j = r
    · subst hj
      simpa [setResponder, Party.after] using (h.responder j).call hc
    · simpa [setResponder, hj] using h.responder j
  · refine he.caused_responder ?_
    by_cases hj : j = r
    · subst hj
      simp only [setResponder, Party.after, Function.update_self, List.mem_append,
        Option.mem_toList] at ha
      exact ha.elim (h.caused_of_responderCall hc a) (h.responderActs j a)
    · simp only [setResponder, Function.update_of_ne hj] at ha
      exact h.responderActs j a ha

end

section

variable [DecidableEq ι] [DecidableEq ρ]

theorem Inv.move (h : n.Inv) (hm : n.Moves n') : n'.Inv := by
  cases hm with
  | initiator i hc => exact h.initiatorCall hc
  | responder r hc => exact h.responderCall hc

theorem Reachable.inv (h : n.Reachable) : n.Inv := by
  induction h with
  | new h => exact h.inv
  | move _ hm ih => exact ih.move hm

end

/-! ## Agreement -/

/-- No challenge is sent by two initiators. -/
def FreshStarts (n : Network ι ρ) : Prop :=
  ∀ i j name name' c, .sent (.authenticate name c) ∈ (n.initiators i).acts →
    .sent (.authenticate name' c) ∈ (n.initiators j).acts → i = j

/-- No two responders answer with one challenge. -/
def FreshAnswers (n : Network ι ρ) : Prop :=
  ∀ r q ca ca' cb s s', .answered s (.accept ca cb s) ∈ (n.responders r).acts →
    .answered s' (.accept ca' cb s') ∈ (n.responders q).acts → r = q

/-- The responder has returned these secrets. -/
def Gave (n : Network ι ρ) (r : ρ) (s : Secrets) : Prop :=
  ∃ m, .answered s m ∈ (n.responders r).acts

/-- The initiator has believed a reply with these secrets. -/
def Took (n : Network ι ρ) (i : ι) (s : Secrets) : Prop :=
  ∃ m, .accepted s m ∈ (n.initiators i).acts

def HasConfirmed (n : Network ι ρ) (r : ρ) : Prop :=
  ∃ name, .confirmed name ∈ (n.responders r).acts

/-- The two sides have secrets, and they have the same. -/
def Share (n : Network ι ρ) (i : ι) (r : ρ) : Prop :=
  ∃ s, (∀ s', n.Took i s' ↔ s' = s) ∧ ∀ s', n.Gave r s' ↔ s' = s

/-- Every responder that has believed a claim has an initiator of its own, which is whom the claim
names and has the same secrets. -/
def RespondersAgree (n : Network ι ρ) : Prop :=
  ∃ partner : {r // n.HasConfirmed r} → ι, Function.Injective partner ∧
    ∀ r : {r // n.HasConfirmed r}, n.Share (partner r) r ∧
      ∀ name, .confirmed name ∈ (n.responders r).acts →
        (n.initiators (partner r)).machine.identity = name

/-- Every initiator that has believed a reply has a responder of its own, which takes it for whom it
is, has heard its challenge and has the same secrets. -/
def InitiatorsAgree (n : Network ι ρ) : Prop :=
  ∃ partner : {i // ∃ s, n.Took i s} → ρ, Function.Injective partner ∧
    ∀ i : {i // ∃ s, n.Took i s}, n.Share i (partner i) ∧
      (n.responders (partner i)).machine.declared = some (n.initiators i).machine.identity ∧
      ∃ c, .sent (.authenticate (n.initiators i).machine.identity c) ∈ (n.initiators i).acts ∧
        .heard (n.initiators i).machine.identity c ∈ (n.responders (partner i)).acts

/-- The initiator has believed the answer of the responder. -/
def Paired (n : Network ι ρ) (i : ι) (r : ρ) : Prop :=
  ∃ ca cb s, .sent (.authenticate (n.initiators i).machine.identity ca) ∈ (n.initiators i).acts ∧
    .answered s (.accept ca cb s) ∈ (n.responders r).acts ∧
    .accepted s (.confirm cb) ∈ (n.initiators i).acts

theorem Inv.exists_paired (h : n.Inv) {i : ι} {s : Secrets} (hs : n.Took i s) :
    ∃ r, n.Paired i r := by
  obtain ⟨m, hm⟩ := hs
  obtain ⟨ca, cb, r, rfl, hsent, hr⟩ := h.initiatorActs i _ hm
  exact ⟨r, ca, cb, s, hsent, hr, hm⟩

/-- A challenge that comes back has been sent back by whom the answer was for. -/
theorem Inv.exists_paired_of_confirmed (h : n.Inv) (hr : n.FreshAnswers) {r : ρ}
    (hc : n.HasConfirmed r) : ∃ i, n.Paired i r := by
  obtain ⟨name, hn⟩ := hc
  obtain ⟨ca, cb, s, s', i, ha, hi⟩ := h.responderActs r _ hn
  obtain ⟨ca', cb', q, hm, hsent, hq⟩ := h.initiatorActs i _ hi
  cases hm
  obtain rfl := hr _ _ _ _ _ _ _ ha hq
  exact ⟨i, ca', cb, s', hsent, hq, hi⟩

theorem Inv.share (h : n.Inv) {i : ι} {r : ρ} (hp : n.Paired i r) : n.Share i r := by
  obtain ⟨ca, cb, s, -, hr, hi⟩ := hp
  refine ⟨s, fun s' => ⟨fun ⟨m, hm⟩ => ?_, ?_⟩, fun s' => ⟨fun ⟨m, hm⟩ => ?_, ?_⟩⟩
  · exact ((h.initiator i).accepted_unique hm hi).1
  · rintro rfl
    exact ⟨_, hi⟩
  · exact ((h.responder r).answered_unique hm hr).1
  · rintro rfl
    exact ⟨_, hr⟩

/-- The responder has heard its initiator. -/
theorem Inv.heard_of_paired (h : n.Inv) (hs : n.FreshStarts) {i : ι} {r : ρ} (hp : n.Paired i r) :
    ∃ c, .sent (.authenticate (n.initiators i).machine.identity c) ∈ (n.initiators i).acts ∧
      .heard (n.initiators i).machine.identity c ∈ (n.responders r).acts := by
  obtain ⟨ca, cb, s, hi, hr, -⟩ := hp
  obtain ⟨name, ca', _, he, hh⟩ := (h.responder r).of_answered hr
  cases he
  obtain ⟨j, hj⟩ := h.responderActs r _ hh
  obtain rfl := hs _ _ _ _ _ hi hj
  obtain ⟨_, hm⟩ := (h.initiator i).of_sent hj
  cases hm
  exact ⟨ca, hi, hh⟩

theorem Inv.paired_left (h : n.Inv) (hs : n.FreshStarts) {i j : ι} {r : ρ} (hi : n.Paired i r)
    (hj : n.Paired j r) : i = j := by
  obtain ⟨ca, cb, s, hi, hr, -⟩ := hi
  obtain ⟨ca', cb', s', hj, hr', -⟩ := hj
  cases ((h.responder r).answered_unique hr hr').2
  exact hs _ _ _ _ _ hi hj

theorem Inv.paired_right (h : n.Inv) (ha : n.FreshAnswers) {i : ι} {r q : ρ} (hr : n.Paired i r)
    (hq : n.Paired i q) : r = q := by
  obtain ⟨ca, cb, s, -, hr, hi⟩ := hr
  obtain ⟨ca', cb', s', -, hq, hi'⟩ := hq
  cases ((h.initiator i).accepted_unique hi hi').2
  exact ha _ _ _ _ _ _ _ hr hq

/-- A responder in the established phase has believed a claim. -/
theorem Inv.hasConfirmed_of_established (h : n.Inv) {r : ρ}
    (hr : (n.responders r).machine.phase = .established) : n.HasConfirmed r := by
  have hl := h.responder r
  rw [hr] at hl
  exact hl.confirmed_of_phase

theorem Inv.respondersAgree (h : n.Inv) (hs : n.FreshStarts) (ha : n.FreshAnswers) :
    n.RespondersAgree := by
  choose partner hp using fun r : {r // n.HasConfirmed r} => h.exists_paired_of_confirmed ha r.2
  refine ⟨partner, fun r q hrq => ?_, fun r => ⟨h.share (hp r), fun name hn => ?_⟩⟩
  · exact Subtype.ext (h.paired_right ha (hp r) (hrq ▸ hp q))
  · obtain ⟨c, -, hc⟩ := h.heard_of_paired hs (hp r)
    have hd := (h.responder r).of_heard hc
    rw [(h.responder r).declared_of_confirmed hn] at hd
    exact (Option.some.inj hd).symm

theorem Inv.initiatorsAgree (h : n.Inv) (hs : n.FreshStarts) : n.InitiatorsAgree := by
  choose partner hp using fun i : {i // ∃ s, n.Took i s} => h.exists_paired i.2.choose_spec
  refine ⟨partner, fun i j hij => ?_, fun i => ⟨h.share (hp i), ?_, h.heard_of_paired hs (hp i)⟩⟩
  · exact Subtype.ext (h.paired_left hs (hp i) (hij ▸ hp j))
  · obtain ⟨c, -, hc⟩ := h.heard_of_paired hs (hp i)
    exact (h.responder _).of_heard hc

/-- **Agreement.** Whatever happens to the messages on their way, responders and initiators are
matched one to one as soon as they believe each other, with one identity and the same secrets. -/
theorem agreement [DecidableEq ι] [DecidableEq ρ] (h : n.Reachable) (hs : n.FreshStarts)
    (ha : n.FreshAnswers) :
    (∀ r, (n.responders r).machine.phase = .established → n.HasConfirmed r) ∧
      n.RespondersAgree ∧ n.InitiatorsAgree :=
  ⟨fun _ => h.inv.hasConfirmed_of_established, h.inv.respondersAgree hs ha, h.inv.initiatorsAgree hs⟩

/-! ### A replay -/

/-- One initiator and two responders. -/
def three (p : Party Initiator Initiator.Act) (q q' : Party Responder Responder.Act) :
    Network Unit Bool :=
  ⟨fun _ => p, fun b => bif b then q' else q⟩

section

variable {p : Party Initiator Initiator.Act} {q q' : Party Responder Responder.Act}

theorem Reachable.initiator (h : (three p q q').Reachable) {act : Option Initiator.Act}
    {m : Initiator} (hc : Initiator.Call (three p q q').Knows p.machine act m) :
    (three (p.after act m) q q').Reachable := by
  have he : (three p q q').setInitiator () (p.after act m) = three (p.after act m) q q' :=
    congrArg (Network.mk · _) (funext fun _ => rfl)
  exact he ▸ h.move (.initiator () hc)

theorem Reachable.first (h : (three p q q').Reachable) {act : Option Responder.Act}
    {m : Responder}
    (hc : Responder.Call (three p q q').Knows ((three p q q').Given false) q.machine act m) :
    (three p (q.after act m) q').Reachable := by
  have he : (three p q q').setResponder false (q.after act m) = three p (q.after act m) q' :=
    congrArg (Network.mk _) (funext fun b => by cases b <;> rfl)
  exact he ▸ h.move (.responder false hc)

theorem Reachable.second (h : (three p q q').Reachable) {act : Option Responder.Act}
    {m : Responder}
    (hc : Responder.Call (three p q q').Knows ((three p q q').Given true) q'.machine act m) :
    (three p q (q'.after act m)).Reachable := by
  have he : (three p q q').setResponder true (q'.after act m) = three p q (q'.after act m) :=
    congrArg (Network.mk _) (funext fun b => by cases b <;> rfl)
  exact he ▸ h.move (.responder true hc)

end

/-- A handshake with the first responder comes to its end, and its first message is replayed to the
second, which answers with another challenge. -/
theorem agreement_of_replay :
    ∃ n : Network Unit Bool, n.Reachable ∧ n.FreshStarts ∧ n.FreshAnswers ∧
      n.HasConfirmed false ∧ (∃ s, n.Gave true s) ∧ n.RespondersAgree ∧ n.InitiatorsAgree := by
  let c : Challenge := ⟨.zero 32⟩
  let c' : Challenge := ⟨.ofPrefix 32 [1]⟩
  let s : Secrets := ⟨⟨.zero 32⟩, ⟨.zero 16⟩⟩
  have hv : Principal.IsValid "alice" := by decide
  have hc : c' ≠ c := by decide
  have h : (three ⟨⟨"alice", .init⟩, []⟩ ⟨.new, []⟩ ⟨.new, []⟩).Reachable :=
    .new ⟨fun _ => ⟨"alice", Initiator.new_eq_ok_iff.2 ⟨hv, rfl⟩⟩, by rintro ⟨⟩ <;> rfl,
      fun _ => rfl, by rintro ⟨⟩ <;> rfl⟩
  have h := h.initiator (.sends rfl c)
  have h := h.first (.hears (c := c) hv ⟨_, .sent (i := ()) (by simp [three, Party.after]), rfl⟩)
  have h := h.first (.answers (c := c) ⟨rfl, rfl⟩ ⟨"alice", by simp [three, Party.after]⟩ c s)
  have h := h.second (.hears (c := c) hv ⟨_, .sent (i := ()) (by simp [three, Party.after]), rfl⟩)
  have h := h.second (.answers (c := c) ⟨rfl, rfl⟩ ⟨"alice", by simp [three, Party.after]⟩ c' s)
  have h := h.initiator (.accepts (c := c) (d := c) (s := s) rfl
    ⟨_, .answered (r := false) (s := s) (by simp [three, Party.after]), rfl⟩)
  have h := h.first (.confirms (c := c) rfl rfl
    ⟨_, .accepted (i := ()) (s := s) (by simp [three, Party.after]), rfl⟩)
  generalize hn : three _ _ _ = n at h
  have hs : n.FreshStarts := by simp [FreshStarts]
  have ha : n.FreshAnswers := by simp [FreshAnswers, ← hn, three, Party.after, hc, hc.symm]
  obtain ⟨-, hr, hi⟩ := agreement h hs ha
  refine ⟨n, h, hs, ha, ⟨"alice", ?_⟩, ⟨s, .accept c c' s, ?_⟩, hr, hi⟩
  · simp [← hn, three, Party.after]
  · simp [← hn, three, Party.after]

end Network

end SealedChat.Handshake
