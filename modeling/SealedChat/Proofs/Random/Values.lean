import SealedChat.Keys.Integrity
import SealedChat.Proofs.Handshake.Steps
import SealedChat.Proofs.History
import SealedChat.Proofs.Random.Source
import SealedChat.Proofs.SealedBox

/-!
# Random values share no bytes

**Calls** (`Entropy.Call`). Every call that draws random bytes: the check that there are any, a
challenge, the secrets of a session, a private key, an integrity key, a sealed box, and the steps of
a handshake that need fresh values. A call draws what it needs in a fixed order (`Call.plan`), up to
the first request that is refused.

**Values** (`Entropy.Value`). What a call draws, each of one kind, and what it makes of it
(`Call.Yields`). A call that is refused a request has drawn the values before it, and returns none.

**Pieces** (`Entropy.Piece`). A value and where its bytes are in the stream.

A call takes its values from the stream one right behind the other, and leaves the position behind
the last of them (`Takes.exists_pieces`). So over any calls, whether they succeed or not, the values
lie in the stream in their order, with nothing between them and no byte in two of them
(`values_disjoint`).
-/

namespace SealedChat.Entropy

open Handshake

/-! ## Values -/

/-- What random bytes are drawn for. -/
inductive Kind where
  | probe
  | challenge
  | sessionKey
  | iv
  | privateKey
  | integrityKey
  | oneTimeKey
  | nonce
deriving DecidableEq

/-- The number of bytes of a value. -/
@[reducible] def Kind.size : Kind → Nat
  | probe => 16
  | iv => 16
  | nonce => 12
  | _ => 32

/-- A value that has been drawn. -/
structure Value where
  kind : Kind
  block : Block kind.size

/-! ## Calls -/

/-- The calls that draw. -/
inductive Call where
  | context
  | challenge
  | secrets
  | privateKey
  | integrityKey
  | sealTo (recipient : PublicKey) (plain : Bytes)
  | start (i : Initiator)
  | reply (r : Responder) (c : Challenge)

namespace Call

/-- What a call returns, with the side of a handshake after it. -/
@[reducible] def Result : Call → Type
  | context => Outcome Unit
  | challenge => Outcome Challenge
  | secrets => Outcome Secrets
  | privateKey => Outcome PrivateKey
  | integrityKey => Outcome IntegrityKey
  | sealTo _ _ => Outcome Bytes
  | start _ => Outcome Message × Initiator
  | reply _ _ => Outcome (Secrets × Message) × Responder

def drawing [CipherSuite] : (c : Call) → Draw c.Result
  | context => probe.run
  | challenge => Challenge.fresh.run
  | secrets => Secrets.fresh.run
  | privateKey => PrivateKey.generate.run
  | integrityKey => IntegrityKey.generate.run
  | sealTo recipient plain => (SealedBox.sealTo recipient plain).run
  | start i => i.start
  | reply r c => r.reply c

/-- The call is refused for what it is asked, not for want of random bytes. -/
def IsRefused : Call → Prop
  | sealTo _ plain => SealedBox.maxPlaintext < plain.length
  | reply r _ => ¬(r.phase = .init ∧ r.declared.isSome)
  | _ => False

/-- What a call draws, in its order. -/
def plan : Call → List Kind
  | context => [.probe]
  | challenge => [.challenge]
  | secrets => [.sessionKey, .iv]
  | privateKey => [.privateKey]
  | integrityKey => [.integrityKey]
  | sealTo _ plain => if SealedBox.maxPlaintext < plain.length then [] else [.oneTimeKey, .nonce]
  | start _ => [.challenge]
  | reply r _ =>
    if r.phase = .init ∧ r.declared.isSome then [.challenge, .sessionKey, .iv] else []

/-- What a call returns when it is refused random bytes. -/
def starved : (c : Call) → c.Result
  | context => .error .entropyExhausted
  | challenge => .error .entropyExhausted
  | secrets => .error .entropyExhausted
  | privateKey => .error .entropyExhausted
  | integrityKey => .error .entropyExhausted
  | sealTo _ _ => .error .entropyExhausted
  | start i => (.error .entropyExhausted, i)
  | reply r _ => (.error .entropyExhausted, { r with phase := .failed })

/-- What a call returns, and the values that it has drawn. -/
inductive Yields [CipherSuite] : (c : Call) → c.Result → List Value → Prop where
  | context (b : Block 16) : Yields .context (.ok ()) [⟨.probe, b⟩]
  | challenge (b : Block 32) : Yields .challenge (.ok ⟨b⟩) [⟨.challenge, b⟩]
  | secrets (k : Block 32) (v : Block 16) :
      Yields .secrets (.ok ⟨⟨k⟩, ⟨v⟩⟩) [⟨.sessionKey, k⟩, ⟨.iv, v⟩]
  | privateKey (k : Block 32) : Yields .privateKey (.ok ⟨k⟩) [⟨.privateKey, k⟩]
  | integrityKey (k : IntegrityKey) (b : Block 32) (h : k.bytes = b.bytes) :
      Yields .integrityKey (.ok k) [⟨.integrityKey, b⟩]
  | sealTo (recipient : PublicKey) (plain : Bytes) (h : plain.length ≤ SealedBox.maxPlaintext)
      (oneTime : Block 32) (nonce : Block 12) :
      Yields (.sealTo recipient plain) (SealedBox.sealWith recipient plain ⟨oneTime⟩ nonce)
        [⟨.oneTimeKey, oneTime⟩, ⟨.nonce, nonce⟩]
  | oversized (recipient : PublicKey) (plain : Bytes) (h : SealedBox.maxPlaintext < plain.length) :
      Yields (.sealTo recipient plain) (.error (.oversizedPayload plain.length)) []
  /-- The challenge is drawn in the wrong phase too. -/
  | start (i : Initiator) (b : Block 32) : Yields (.start i) (i.startWith ⟨b⟩) [⟨.challenge, b⟩]
  | reply (r : Responder) (c : Challenge) (h : r.phase = .init ∧ r.declared.isSome)
      (cb k : Block 32) (v : Block 16) :
      Yields (.reply r c) (.ok (⟨⟨k⟩, ⟨v⟩⟩, .accept c ⟨cb⟩ ⟨⟨k⟩, ⟨v⟩⟩),
          { r with phase := .awaitingConfirmation ⟨cb⟩ })
        [⟨.challenge, cb⟩, ⟨.sessionKey, k⟩, ⟨.iv, v⟩]
  | unready (r : Responder) (c : Challenge) (h : ¬(r.phase = .init ∧ r.declared.isSome)) :
      Yields (.reply r c) (.error .wrongState, { r with phase := .failed }) []
  /-- One request is refused, and those before it are not. -/
  | starved (c : Call) (drawn : List Value) {k : Kind} {rest : List Kind}
      (h : c.plan = drawn.map Value.kind ++ k :: rest) : Yields c c.starved drawn

/-! ### Calls keep to their plans -/

variable [CipherSuite] {c : Call} {r : c.Result} {drawn : List Value}

omit [CipherSuite] in
theorem plan_of_isRefused (h : c.IsRefused) : c.plan = [] := by
  cases c with
  | sealTo recipient plain => exact if_pos h
  | reply r c => exact if_neg h
  | _ => exact h.elim

/-- What has been drawn is what the plan begins with. -/
theorem Yields.prefix_plan (h : c.Yields r drawn) : drawn.map Value.kind <+: c.plan := by
  cases h with
  | sealTo recipient plain h oneTime nonce =>
    rw [plan, if_neg (Nat.not_lt.2 h)]
    exact List.prefix_rfl
  | reply r c h cb k v =>
    rw [plan, if_pos h]
    exact List.prefix_rfl
  | oversized => exact List.nil_prefix
  | unready => exact List.nil_prefix
  | starved c drawn h => exact ⟨_, h.symm⟩
  | _ => exact List.prefix_rfl

/-- A call that is refused for what it is asked draws nothing. -/
theorem Yields.eq_nil (h : c.Yields r drawn) (hc : c.IsRefused) : drawn = [] := by
  have hprefix := h.prefix_plan
  rw [plan_of_isRefused hc, List.prefix_nil, List.map_eq_nil_iff] at hprefix
  exact hprefix

/-! ### What a call draws, it yields -/

omit [CipherSuite] in
/-- The blocks that have been granted, in their order. -/
def granted (answers : List Draw.Answer) : List Bytes :=
  answers.filterMap fun a => a.block.map Block.bytes

variable {answers : List Draw.Answer}

/-- The values that have been drawn are what has been granted, and the call yields them. -/
def Drew (c : Call) (r : c.Result) (answers : List Draw.Answer) : Prop :=
  ∃ drawn : List Value, drawn.map (fun v => v.block.bytes) = granted answers ∧ c.Yields r drawn

/-- Calls that draw one value. -/
theorem drew_one {k : Kind} {f : Block k.size → c.Result} (hplan : c.plan = [k])
    (hyields : ∀ b, c.Yields (f b) [⟨k, b⟩]) {next : Option (Block k.size) → Draw c.Result}
    (hnone : next none = .done c.starved) (hsome : ∀ b, next (some b) = .done (f b))
    (h : (Draw.fill k.size next).Runs answers r) : c.Drew r answers := by
  obtain ⟨_ | b, _, rfl, h'⟩ := Draw.runs_fill_iff.1 h
  · obtain ⟨rfl, rfl⟩ := Draw.runs_done_iff.1 (hnone ▸ h')
    exact ⟨[], rfl, .starved c [] hplan⟩
  · obtain ⟨rfl, rfl⟩ := Draw.runs_done_iff.1 (hsome b ▸ h')
    exact ⟨[⟨k, b⟩], rfl, hyields b⟩

theorem drew_secrets {r : Outcome Secrets} (h : secrets.drawing.Runs answers r) :
    secrets.Drew r answers := by
  obtain ⟨_ | k, _, rfl, hk⟩ := Draw.runs_fill_iff.1 h
  · obtain ⟨rfl, rfl⟩ := Draw.runs_done_iff.1 hk
    exact ⟨[], rfl, .starved secrets [] rfl⟩
  obtain ⟨_ | v, _, rfl, hv⟩ := Draw.runs_fill_iff.1 hk
  · obtain ⟨rfl, rfl⟩ := Draw.runs_done_iff.1 hv
    exact ⟨[⟨.sessionKey, k⟩], rfl, .starved secrets _ rfl⟩
  · obtain ⟨rfl, rfl⟩ := Draw.runs_done_iff.1 hv
    exact ⟨_, rfl, .secrets k v⟩

theorem drew_sealTo {recipient : PublicKey} {plain : Bytes} {r : Outcome Bytes}
    (h : (sealTo recipient plain).drawing.Runs answers r) :
    (sealTo recipient plain).Drew r answers := by
  have hplan (hlen : plain.length ≤ SealedBox.maxPlaintext) :
      plan (sealTo recipient plain) = [.oneTimeKey, .nonce] := if_neg (Nat.not_lt.2 hlen)
  cases SealedBox.runs_sealTo_iff.1 h with
  | oversized hlong => exact ⟨[], rfl, .oversized recipient plain hlong⟩
  | noKey hlen => exact ⟨[], rfl, .starved _ [] (hplan hlen)⟩
  | noNonce hlen oneTime => exact ⟨[⟨.oneTimeKey, oneTime⟩], rfl, .starved _ _ (hplan hlen)⟩
  | drawn hlen oneTime nonce => exact ⟨_, rfl, .sealTo recipient plain hlen oneTime nonce⟩

theorem drew_reply {p : Responder} {c : Challenge} {r : Outcome (Secrets × Message) × Responder}
    (h : (reply p c).drawing.Runs answers r) : (reply p c).Drew r answers := by
  by_cases hready : p.phase = .init ∧ p.declared.isSome
  · have hplan : plan (reply p c) = [.challenge, .sessionKey, .iv] := if_pos hready
    rw [drawing, Responder.reply_eq hready] at h
    obtain ⟨_ | cb, _, rfl, hcb⟩ := Draw.runs_fill_iff.1 h
    · obtain ⟨rfl, rfl⟩ := Draw.runs_done_iff.1 hcb
      exact ⟨[], rfl, .starved _ [] hplan⟩
    obtain ⟨_ | k, _, rfl, hk⟩ := Draw.runs_fill_iff.1 hcb
    · obtain ⟨rfl, rfl⟩ := Draw.runs_done_iff.1 hk
      exact ⟨[⟨.challenge, cb⟩], rfl, .starved _ _ hplan⟩
    obtain ⟨_ | v, _, rfl, hv⟩ := Draw.runs_fill_iff.1 hk
    · obtain ⟨rfl, rfl⟩ := Draw.runs_done_iff.1 hv
      exact ⟨[⟨.challenge, cb⟩, ⟨.sessionKey, k⟩], rfl, .starved _ _ hplan⟩
    · obtain ⟨rfl, rfl⟩ := Draw.runs_done_iff.1 hv
      exact ⟨_, rfl, .reply p c hready cb k v⟩
  · rw [drawing, Responder.reply, if_neg hready] at h
    obtain ⟨rfl, rfl⟩ := Draw.runs_done_iff.1 h
    exact ⟨[], rfl, .unready p c hready⟩

/-- **What a call draws, it yields**, and nothing else is granted to it. -/
theorem drew_of_runs (h : c.drawing.Runs answers r) : c.Drew r answers := by
  cases c with
  | context => exact drew_one rfl .context rfl (fun _ => rfl) h
  | challenge => exact drew_one rfl .challenge rfl (fun _ => rfl) h
  | secrets => exact drew_secrets h
  | privateKey => exact drew_one rfl .privateKey rfl (fun _ => rfl) h
  | integrityKey =>
    exact drew_one rfl (fun b => .integrityKey ⟨b.bytes, by rw [b.length_bytes]; decide⟩ b rfl) rfl
      (fun _ => rfl) h
  | sealTo recipient plain => exact drew_sealTo h
  | start i => exact drew_one rfl (.start i) rfl (fun _ => rfl) h
  | reply r c => exact drew_reply h

end Call

/-! ## Pieces of the stream -/

/-- A value, and where its bytes begin in the stream. -/
structure Piece where
  start : Nat
  value : Value

/-- The position behind a piece. -/
def Piece.stop (x : Piece) : Nat := x.start + x.value.kind.size

/-- The pieces are of the stream, and lie one right behind the other between two positions. -/
def Adjoin (bytes : Nat → UInt8) : Nat → List Piece → Nat → Prop
  | p, [], q => q = p
  | p, x :: rest, q => x.start = p ∧ x.value.block.bytes = segment bytes p x.value.kind.size ∧
      Adjoin bytes x.stop rest q

variable {bytes : Nat → UInt8} {p q : Nat} {pieces : List Piece}

theorem adjoin_append_iff {xs ys : List Piece} :
    Adjoin bytes p (xs ++ ys) q ↔ ∃ m, Adjoin bytes p xs m ∧ Adjoin bytes m ys q := by
  induction xs generalizing p with
  | nil => simp [Adjoin]
  | cons x xs ih =>
    simp only [List.cons_append, Adjoin, ih]
    constructor
    · intro ⟨hstart, hbytes, m, hxs, hys⟩
      exact ⟨m, ⟨hstart, hbytes, hxs⟩, hys⟩
    · intro ⟨m, ⟨hstart, hbytes, hxs⟩, hys⟩
      exact ⟨hstart, hbytes, m, hxs, hys⟩

theorem Adjoin.bounds (h : Adjoin bytes p pieces q) :
    p ≤ q ∧ ∀ x ∈ pieces, p ≤ x.start ∧ x.stop ≤ q := by
  induction pieces generalizing p with
  | nil => exact ⟨Nat.le_of_eq h.symm, by simp⟩
  | cons x pieces ih =>
    obtain ⟨hstart, -, hrest⟩ := h
    obtain ⟨hle, hall⟩ := ih hrest
    have hx : p ≤ x.stop := by
      rw [Piece.stop, hstart]
      exact Nat.le_add_right _ _
    refine ⟨Nat.le_trans hx hle, List.forall_mem_cons.2 ⟨⟨Nat.le_of_eq hstart.symm, hle⟩, ?_⟩⟩
    intro y hy
    exact ⟨Nat.le_trans hx (hall y hy).1, (hall y hy).2⟩

/-- **Pieces one behind the other share no bytes.** -/
theorem Adjoin.pairwise (h : Adjoin bytes p pieces q) :
    pieces.Pairwise fun x y => x.stop ≤ y.start := by
  induction pieces generalizing p with
  | nil => exact .nil
  | cons x pieces ih =>
    obtain ⟨-, -, hrest⟩ := h
    exact .cons (fun y hy => (hrest.bounds.2 y hy).1) (ih hrest)

/-- What a source grants lies in its stream piece by piece. -/
theorem exists_adjoin {answers : List Draw.Answer} (h : Supplies bytes p answers q)
    {drawn : List Value} (hdrawn : drawn.map (fun v => v.block.bytes) = Call.granted answers) :
    ∃ pieces : List Piece, pieces.map Piece.value = drawn ∧ Adjoin bytes p pieces q := by
  induction h generalizing drawn with
  | nil p =>
    obtain rfl := List.map_eq_nil_iff.1 hdrawn
    exact ⟨[], rfl, rfl⟩
  | @granted p q n b rest hb h ih =>
    obtain ⟨v, drawn, rfl, hv, hrest⟩ := List.map_eq_cons_iff.1 hdrawn
    obtain ⟨pieces, hpieces, hadjoin⟩ := ih hrest
    have hsize : v.kind.size = n := by
      rw [← v.block.length_bytes, ← b.length_bytes, hv]
    refine ⟨⟨p, v⟩ :: pieces, by rw [List.map_cons, hpieces], rfl, ?_, ?_⟩
    · exact (hv.trans hb).trans (congrArg (segment bytes p) hsize.symm)
    · rw [Piece.stop, hsize]
      exact hadjoin
  | refused n h ih => exact ih hdrawn

/-! ## Calls in a row -/

/-- A call that has been made. -/
structure Turn where
  call : Call
  result : call.Result

variable [CipherSuite] {t : Turn} {ts : List Turn}

/-- The call is made while the source supplies it from one position to another. -/
def Takes (bytes : Nat → UInt8) (p : Nat) (t : Turn) (q : Nat) : Prop :=
  ∃ answers, t.call.drawing.Runs answers t.result ∧ Supplies bytes p answers q

/-- The call has taken its values from these pieces. -/
def Turn.Has (t : Turn) (pieces : List Piece) : Prop :=
  t.call.Yields t.result (pieces.map Piece.value)

theorem Takes.exists_pieces (h : Takes bytes p t q) :
    ∃ pieces, t.Has pieces ∧ Adjoin bytes p pieces q := by
  obtain ⟨answers, hruns, hsupplies⟩ := h
  obtain ⟨drawn, hdrawn, hyields⟩ := Call.drew_of_runs hruns
  obtain ⟨pieces, rfl, hadjoin⟩ := exists_adjoin hsupplies hdrawn
  exact ⟨pieces, hyields, hadjoin⟩

theorem Turn.Has.eq_nil (h : t.Has pieces) (ht : t.call.IsRefused) : pieces = [] :=
  List.map_eq_nil_iff.1 (Call.Yields.eq_nil h ht)

/-- A call that is refused for what it is asked leaves the position where it was. -/
theorem Takes.eq_of_isRefused (h : Takes bytes p t q) (ht : t.call.IsRefused) : q = p := by
  obtain ⟨pieces, hhas, hadjoin⟩ := h.exists_pieces
  obtain rfl := hhas.eq_nil ht
  exact hadjoin

/-- Calls that are answered from a random stream, one after the other, and the stream after them. -/
def callAll : List Call → RandomStream → List Turn × RandomStream
  | [], r => ([], r)
  | c :: cs, r =>
    let (result, r) := c.drawing.run r
    let (ts, r) := callAll cs r
    (⟨c, result⟩ :: ts, r)

/-- A random stream supplies any calls. -/
theorem history_callAll (cs : List Call) {s : UInt64} {r : RandomStream}
    (h : r.state = RandomStream.advance^[p] s) :
    ∃ q, History (Takes (RandomStream.byteAt s)) p (callAll cs r).1 q ∧
      (callAll cs r).2.state = RandomStream.advance^[q] s := by
  induction cs generalizing p r with
  | nil => exact ⟨p, .nil p, h⟩
  | cons c cs ih =>
    obtain ⟨answers, m, hruns, hsupplies, hm⟩ := RandomStream.supplies_run c.drawing h
    obtain ⟨q, hrest, hq⟩ := ih hm
    exact ⟨q, .cons ⟨answers, hruns, hsupplies⟩ hrest, hq⟩

theorem exists_pieces_of_history (h : History (Takes bytes) p ts q) :
    ∃ pieces, List.Forall₂ Turn.Has ts pieces ∧ Adjoin bytes p pieces.flatten q := by
  induction h with
  | nil p => exact ⟨[], .nil, rfl⟩
  | cons ht _ ih =>
    obtain ⟨own, hown, hadjoin⟩ := ht.exists_pieces
    obtain ⟨pieces, hpieces, hrest⟩ := ih
    exact ⟨own :: pieces, .cons hown hpieces, adjoin_append_iff.2 ⟨_, hadjoin, hrest⟩⟩

/-- **Random values share no bytes.** Calls in a row, of any kind, on any sides of handshakes, and
refused random bytes or not, take their values from pieces of the stream. These lie one right behind
the other, in the order of the calls and of the draws in each, so no two of them have a byte in
common. A call that is refused for what it is asked, a message that is too long or a reply in the
wrong phase, takes nothing: the next call goes on from where it was. -/
theorem values_disjoint (h : History (Takes bytes) p ts q) :
    (∃ pieces, List.Forall₂ Turn.Has ts pieces ∧ Adjoin bytes p pieces.flatten q ∧
      pieces.flatten.Pairwise fun x y => x.stop ≤ y.start) ∧
    ∀ before t after, ts = before ++ t :: after → t.call.IsRefused → t.Has [] ∧
      ∃ m, History (Takes bytes) p before m ∧ History (Takes bytes) m after q := by
  constructor
  · obtain ⟨pieces, hhas, hadjoin⟩ := exists_pieces_of_history h
    exact ⟨pieces, hhas, hadjoin, hadjoin.pairwise⟩
  · intro before t after hts ht
    subst hts
    obtain ⟨m, m', hbefore, htakes, hafter⟩ := History.turn_iff.1 h
    obtain rfl := htakes.eq_of_isRefused ht
    obtain ⟨own, hown, -⟩ := htakes.exists_pieces
    obtain rfl := hown.eq_nil ht
    exact ⟨hown, m', hbefore, hafter⟩

omit [CipherSuite] in
/-- The vector of a session is refused, then a message is too long, and a challenge is drawn. -/
theorem values_disjoint_of_refused :
    let suite := CipherSuite.standard
    let bytes : Nat → UInt8 := UInt8.ofNat
    let r : Responder := ⟨some "alice", .init⟩
    let plain : Bytes := List.replicate 513 0
    let drawn : Challenge := ⟨⟨segment bytes 64 32, by decide⟩⟩
    let starved : Turn := ⟨.reply r ⟨.zero 32⟩, (.error .entropyExhausted, ⟨some "alice", .failed⟩)⟩
    let oversized : Turn := ⟨.sealTo ⟨.zero 32⟩ plain, .error (.oversizedPayload plain.length)⟩
    let ts : List Turn := [starved, oversized, ⟨.challenge, .ok drawn⟩]
    History (Takes bytes) 0 ts 96 ∧ ∃ pieces, List.Forall₂ Turn.Has ts pieces ∧
      Adjoin bytes 0 pieces.flatten 96 ∧ pieces.flatten.Pairwise fun x y => x.stop ≤ y.start := by
  intro suite bytes r plain drawn starved oversized ts
  have hstarved : Takes bytes 0 starved 64 := by
    refine ⟨[⟨32, some ⟨segment bytes 0 32, by decide⟩⟩,
      ⟨32, some ⟨segment bytes 32 32, by decide⟩⟩, ⟨16, none⟩], ?_,
      .granted rfl (.granted rfl (.refused 16 (.nil 64)))⟩
    exact .fill _ (.fill _ (.fill _ (.done _)))
  have hoversized : Takes bytes 64 oversized 64 := by
    have hlong : SealedBox.maxPlaintext < plain.length := by
      rw [List.length_replicate]
      decide
    exact ⟨[], SealedBox.runs_sealTo_iff.2 (.oversized hlong), .nil 64⟩
  have hdrawn : Takes bytes 64 ⟨.challenge, .ok drawn⟩ 96 :=
    ⟨[⟨32, some drawn.block⟩], .fill _ (.done _), .granted rfl (.nil 96)⟩
  have h : History (Takes bytes) 0 ts 96 :=
    .cons hstarved (.cons hoversized (.cons hdrawn (.nil 96)))
  exact ⟨h, (values_disjoint h).1⟩

end SealedChat.Entropy
