import SealedChat.Proofs.Handshake.Honest
import SealedChat.Proofs.Server.Sound
import SealedChat.Service.Server

/-!
# Who owns an identity

**Theorem (`ownership`).** Whatever the connections of a server do, in whatever order, an identity
that is online is owned by exactly one open connection, whose session is logged in under that
identity. Only the owner has requests dispatched for it. A connection that has been turned away
leaves the table alone until it ends, and once a connection has ended it owns nothing.

The invariant (`Inv`) says that every open connection is sound and that every owner is one of them.
A turn of one connection keeps it (`Inv.settle`), hence every course of a server does.

Connections are known by their numbers, which are words of 64 bits, so the theorem is about courses
on which no two open connections have the same number (`Course`). These are all courses on which
fewer than 2 ^ 64 lines have been opened (`course_of_opened`).
-/

namespace SealedChat.Server

/-! ## The connections of a server -/

open Connection

variable {s t : Server} {c d : Connection}

/-- No two open connections have the same number. -/
def Distinct (s : Server) : Prop := (s.connections.map Connection.id).Nodup

theorem Distinct.eq (h : s.Distinct) (hc : c ∈ s.connections) (hd : d ∈ s.connections)
    (hid : c.id = d.id) : c = d :=
  List.inj_on_of_nodup_map h hc hd hid

theorem mem_settle {id : ConnectionId} {change : Change} : d ∈ (s.settle id change).connections ↔
    (d = (change s.hub).2 ∧ d.phase ≠ .ended) ∨ (d ∈ s.connections ∧ d.id ≠ id) := by
  simp only [settle]
  split_ifs with h
  · simp only [List.mem_filter, decide_eq_true_eq]
    constructor
    · exact .inr
    · rintro (⟨rfl, hd⟩ | hd)
      · exact absurd h hd
      · exact hd
  · simp only [List.mem_cons, List.mem_filter, decide_eq_true_eq]
    constructor
    · rintro (rfl | hd)
      · exact .inl ⟨rfl, h⟩
      · exact .inr hd
    · rintro (⟨rfl, -⟩ | hd)
      · exact .inl rfl
      · exact .inr hd

theorem Distinct.settle (h : s.Distinct) {id : ConnectionId} {change : Change}
    (hid : (change s.hub).2.id = id) : (s.settle id change).Distinct := by
  have hothers : ((s.connections.filter (·.id ≠ id)).map Connection.id).Nodup :=
    h.sublist (List.filter_sublist.map Connection.id)
  simp only [Distinct, Server.settle]
  split_ifs
  · exact hothers
  · refine List.nodup_cons.2 ⟨?_, hothers⟩
    rw [hid]
    intro hm
    obtain ⟨d, hd, hdid⟩ := List.mem_map.1 hm
    have hne := (List.mem_filter.1 hd).2
    simp [hdid] at hne

/-! ## The invariant -/

/-- Every open connection is sound, and every owner is one of them. -/
structure Inv (s : Server) : Prop where
  distinct : s.Distinct
  keyed : s.hub.table.Keyed
  sound : ∀ {c}, c ∈ s.connections → Sound s.hub.table c
  owned : ∀ {x id}, s.hub.table.connectionOf x = some id → ∃ c ∈ s.connections, c.id = id

theorem inv_new (settings : ServerSettings) (own : PrivateKey) (store : KeyStore)
    (dispatcher : Dispatcher SessionTable) : Inv (new settings own store dispatcher) where
  distinct := .nil
  keyed := .nil
  sound hc := by cases hc
  owned hx := by cases hx

/-- The number of a new connection is not one under which something is owned. -/
theorem Inv.accept (h : Inv s) (hd : s.accept.Distinct) : Inv s.accept := by
  unfold Server.accept at hd ⊢
  split_ifs at hd ⊢ with hfull
  · exact h
  have hnew : ∀ c ∈ s.connections, c.id ≠ s.nextId := by
    intro c hc hid
    exact (List.nodup_cons.1 hd).1 (List.mem_map.2 ⟨c, hc, hid⟩)
  refine ⟨hd, h.keyed, fun {c} hc => ?_, fun hx => ?_⟩
  · rcases List.mem_cons.1 hc with rfl | hc
    · refine .of_free ?_ trivial nofun
      intro x hx
      obtain ⟨c, hc, hid⟩ := h.owned hx
      exact hnew c hc hid
    · exact h.sound hc
  · obtain ⟨c, hc, hid⟩ := h.owned hx
    exact ⟨c, List.mem_cons_of_mem _ hc, hid⟩

/-- **A turn of one connection keeps the invariant of the server.** -/
theorem Inv.settle (h : Inv s) (hc : c ∈ s.connections) {change : Change}
    (hm : c.Makes change) : Inv (s.settle c.id change) := by
  have hturn := hm.turn s.hub
  have hid := hturn.id_eq
  have hsound := (h.sound hc).turn hturn
  refine ⟨h.distinct.settle hid, hturn.keyed h.keyed, fun {d} hd => ?_, fun {x id} hx => ?_⟩
  · rcases mem_settle.1 hd with ⟨rfl, -⟩ | ⟨hd, hne⟩
    · exact hsound
    · exact (h.sound hd).congr (hturn.owned_iff hne)
  · by_cases hown : id = c.id
    · -- What the connection owns after its turn, it is there to own.
      rw [hown, ← hid] at hx
      exact ⟨_, mem_settle.2 (.inl ⟨rfl, hsound.ne_ended hx⟩), hid.trans hown.symm⟩
    · obtain ⟨d, hd, rfl⟩ := h.owned ((hturn.owned_iff hown x).1 hx)
      exact ⟨d, mem_settle.2 (.inr ⟨hd, hown⟩), rfl⟩

variable [CipherSuite]

theorem Inv.moves (h : Inv s) (hm : Moves s t) (hd : t.Distinct) : Inv t := by
  cases hm with
  | accept => exact h.accept hd
  | step hc hruns => exact h.settle hc (makes_of_runs hruns)
  | missed | register | shutdown => exact ⟨h.distinct, h.keyed, h.sound, h.owned⟩

/-! ## Courses -/

/-- What can have happened to a server while no two open connections had the same number. -/
inductive Course : Server → Prop
  | new (settings : ServerSettings) (own : PrivateKey) (store : KeyStore)
      (dispatcher : Dispatcher SessionTable) : Course (new settings own store dispatcher)
  | move {s t : Server} : Course s → Moves s t → t.Distinct → Course t

theorem Course.inv (h : Course s) : Inv s := by
  induction h with
  | new settings own store dispatcher => exact inv_new settings own store dispatcher
  | move _ hm hd ih => exact ih.moves hm hd

/-- A connection makes a step, and what becomes of it. -/
def Steps (s : Server) (c : Connection) (t : Server) (d : Connection) : Prop :=
  c ∈ s.connections ∧ ∃ es change, Dialogue.Runs (s.next c) es change ∧
    t = s.settle c.id change ∧ d = (change s.hub).2

theorem Steps.turn (h : s.Steps c t d) : Turn c s.hub.table t.hub.table d := by
  obtain ⟨-, es, change, hruns, rfl, rfl⟩ := h
  exact (makes_of_runs hruns).turn s.hub

theorem Steps.inv (h : s.Steps c t d) (hi : Inv s) : Inv t := by
  obtain ⟨hc, es, change, hruns, rfl, rfl⟩ := h
  exact hi.settle hc (makes_of_runs hruns)

theorem Course.steps (h : Course s) (hsteps : s.Steps c t d) : Course t := by
  have hd := (hsteps.inv h.inv).distinct
  obtain ⟨hc, es, change, hruns, rfl, rfl⟩ := hsteps
  exact h.move (.step s hc hruns) hd

/-- What can become of a connection and its server, while it and the others make their steps. -/
inductive Follows (s : Server) (c : Connection) : Server → Connection → Prop
  | refl : Follows s c s c
  | own {t u : Server} {d e : Connection} : Follows s c t d → t.Steps d u e → Follows s c u e
  | other {t u : Server} {d : Connection} : Follows s c t d → Moves t u → u.Distinct →
      d ∈ t.connections → d ∈ u.connections → Follows s c u d

/-- A move that leaves a connection without property, and as it was, gives it none. -/
theorem Moves.free (h : Moves s t) (hi : Inv s) (hc : c ∈ s.connections) (hl : c.phase.IsLast)
    (hf : Free s.hub.table c) : Free t.hub.table c := by
  cases h with
  | accept =>
    unfold Server.accept
    split_ifs <;> exact hf
  | @step d es change hd hruns =>
    have hturn := (makes_of_runs hruns).turn s.hub
    by_cases hid : c.id = d.id
    · obtain rfl := hi.distinct.eq hc hd hid
      have ht : (s.settle c.id change).hub.table = s.hub.table := (hturn.last hl hf).1
      rw [ht]
      exact hf
    · intro x hx
      exact hf x ((hturn.owned_iff hid x).1 hx)
  | missed | register | shutdown => exact hf

/-- **A connection that has been turned away owns nothing from then on.** -/
theorem Follows.last (h : Follows s c t d) (hs : Course s) (hl : c.phase.IsLast)
    (hf : Free s.hub.table c) : Course t ∧ d.phase.IsLast ∧ Free t.hub.table d := by
  induction h with
  | refl => exact ⟨hs, hl, hf⟩
  | @own t u d e _ hsteps ih =>
    obtain ⟨ht, hl, hf⟩ := ih
    obtain ⟨hu, hl'⟩ := hsteps.turn.last hl hf
    refine ⟨ht.steps hsteps, hl', ?_⟩
    rw [hu]
    intro x
    rw [hsteps.turn.id_eq]
    exact hf x
  | other _ hm hd hdt _ ih =>
    obtain ⟨ht, hl, hf⟩ := ih
    exact ⟨ht.move hm hd, hl, hm.free ht.inv hdt hl hf⟩

/-! ## How many lines it takes -/

/-- What can have happened to a server to which `n` lines have been opened. -/
inductive Opened : Nat → Server → Prop
  | new (settings : ServerSettings) (own : PrivateKey) (store : KeyStore)
      (dispatcher : Dispatcher SessionTable) : Opened 0 (new settings own store dispatcher)
  | accept {n : Nat} {s : Server} : Opened n s → Opened (n + 1) s.accept
  | move {n : Nat} {s t : Server} : Opened n s → Moves s t → t.nextId = s.nextId → Opened n t

theorem Reachable.exists_opened (h : Reachable s) : ∃ n, Opened n s := by
  induction h with
  | new settings own store dispatcher => exact ⟨0, .new settings own store dispatcher⟩
  | move _ hm ih =>
    obtain ⟨n, ih⟩ := ih
    cases hm with
    | accept => exact ⟨n + 1, ih.accept⟩
    | missed => exact ⟨n, ih.move (.missed _) rfl⟩
    | step hc hruns => exact ⟨n, ih.move (.step _ hc hruns) rfl⟩
    | register command handler => exact ⟨n, ih.move (.register _ command handler) rfl⟩
    | shutdown => exact ⟨n, ih.move (.shutdown _) rfl⟩

/-- The first `k` numbers have been given out, and no others. -/
structure Numbered (k : Nat) (s : Server) : Prop where
  next : s.nextId = .ofNat (k + 1)
  le : ∀ {c}, c ∈ s.connections → c.id.toNat ≤ k

theorem Numbered.accept {k : Nat} (h : Numbered k s) (hk : k + 1 < 2 ^ 64) (hs : Course s) :
    Course s.accept ∧ ∃ k' ≤ k + 1, Numbered k' s.accept := by
  have hmove := Moves.accept s
  unfold Server.accept at hmove ⊢
  split_ifs at hmove ⊢
  · exact ⟨hs, k, Nat.le_succ k, h⟩
  have hnext : s.nextId.toNat = k + 1 := by
    rw [h.next, UInt64.toNat_ofNat_of_lt' hk]
  refine ⟨hs.move hmove (List.nodup_cons.2 ⟨?_, hs.inv.distinct⟩), k + 1, Nat.le_refl _, ?_, ?_⟩
  · intro hm
    obtain ⟨c, hc, (hid : c.id = s.nextId)⟩ := List.mem_map.1 hm
    have hle : c.id.toNat ≤ k := h.le hc
    rw [hid, hnext] at hle
    exact Nat.not_succ_le_self k hle
  · rw [h.next]
    simp
  · intro c hc
    rcases List.mem_cons.1 hc with rfl | hc
    · exact Nat.le_of_eq hnext
    · exact Nat.le_succ_of_le (h.le hc)

theorem Numbered.move {k : Nat} (h : Numbered k s) (hs : Course s) (hm : Moves s t)
    (hid : t.nextId = s.nextId) : Course t ∧ Numbered k t := by
  cases hm with
  | accept =>
    unfold Server.accept at hid ⊢
    split_ifs at hid ⊢
    · exact ⟨hs, h⟩
    · simp at hid
  | @step c es change hc hruns =>
    have hsteps : s.Steps c (s.settle c.id change) (change s.hub).2 :=
      ⟨hc, es, change, hruns, rfl, rfl⟩
    refine ⟨hs.steps hsteps, h.next, fun {d} hd => ?_⟩
    rcases mem_settle.1 hd with ⟨rfl, -⟩ | ⟨hd, -⟩
    · rw [hsteps.turn.id_eq]
      exact h.le hc
    · exact h.le hd
  | missed => exact ⟨hs.move (.missed s) hs.inv.distinct, h.next, h.le⟩
  | register command handler =>
    exact ⟨hs.move (.register s command handler) hs.inv.distinct, h.next, h.le⟩
  | shutdown => exact ⟨hs.move (.shutdown s) hs.inv.distinct, h.next, h.le⟩

/-- It takes 2 ^ 64 lines before a number comes up again. -/
theorem course_of_opened {n : Nat} (h : Opened n s) (hn : n < 2 ^ 64) : Course s := by
  suffices Course s ∧ ∃ k ≤ n, Numbered k s from this.1
  induction h with
  | new settings own store dispatcher =>
    exact ⟨.new settings own store dispatcher, 0, Nat.le_refl 0, rfl, by rintro c ⟨⟩⟩
  | @accept n s _ ih =>
    obtain ⟨hs, k, hk, hnum⟩ := ih (Nat.lt_of_succ_lt hn)
    have hk' : k + 1 ≤ n + 1 := Nat.succ_le_succ hk
    obtain ⟨ht, k', hle, hnum'⟩ := hnum.accept (Nat.lt_of_le_of_lt hk' hn) hs
    exact ⟨ht, k', Nat.le_trans hle hk', hnum'⟩
  | move _ hm hid ih =>
    obtain ⟨hs, k, hk, hnum⟩ := ih hn
    obtain ⟨ht, hnum'⟩ := hnum.move hs hm hid
    exact ⟨ht, k, hk, hnum'⟩

/-! ## The theorem -/

/-- Who owns which identity, and what that means for the steps of the connections. -/
structure Ownership (s : Server) : Prop where
  /-- No identity is listed twice. -/
  keyed : (s.hub.table.owners.map Prod.fst).Nodup
  /-- An identity is owned by one open connection, which is logged in under that identity. -/
  owner : ∀ {x id}, s.hub.table.connectionOf x = some id →
    ∃ c ∈ s.connections, c.id = id ∧ c.phase ≠ .ended ∧ c.session.identity = some x ∧
      ∀ d ∈ s.connections, d.id = id → d = c
  /-- No connection owns two identities. -/
  single : ∀ {x y id}, s.hub.table.connectionOf x = some id →
    s.hub.table.connectionOf y = some id → x = y
  /-- The handlers are asked for the owner of an identity only. -/
  asked : ∀ {c es change}, c ∈ s.connections → Dialogue.Runs (s.next c) es change →
    change.Unasked ∨ ∃ identity line, c.phase = .dispatching identity line ∧
      change = c.dispatch identity line ∧ s.hub.table.connectionOf identity = some c.id
  /-- A connection is turned away if its identity is owned already, and never changes the table. -/
  refused : ∀ {c t d identity owner}, s.Steps c t d → c.phase = .binding identity →
    s.hub.table.connectionOf identity = some owner →
      owner ≠ c.id ∧ d.phase = .refusing .alreadyLoggedIn ∧
        t.hub.table.owners = s.hub.table.owners ∧
        ∀ {u e v e'}, Follows t d u e → u.Steps e v e' →
          v.hub.table.owners = u.hub.table.owners
  /-- A connection that has just ended owns nothing. -/
  ended : ∀ {c t d}, s.Steps c t d → d.phase = .ended →
    ∀ x, t.hub.table.connectionOf x ≠ some c.id
  /-- No connection that is not open owns anything. -/
  absent : ∀ {id}, (∀ c ∈ s.connections, c.id ≠ id) →
    ∀ x, s.hub.table.connectionOf x ≠ some id

/-- **An identity belongs to the connection that is logged in under it**, on every course of a
server. -/
theorem ownership (h : Course s) : s.Ownership where
  keyed := h.inv.keyed
  owner {x id} hx := by
    obtain ⟨c, hc, rfl⟩ := h.inv.owned hx
    refine ⟨c, hc, rfl, (h.inv.sound hc).ne_ended hx, (h.inv.sound hc).authenticated hx, ?_⟩
    intro d hd hid
    exact h.inv.distinct.eq hd hc hid
  single {x y id} hx hy := by
    obtain ⟨c, hc, rfl⟩ := h.inv.owned hx
    exact (h.inv.sound hc).eq_of_owned hx hy
  asked {c es change} hc hruns := by
    rcases (makes_of_runs hruns).unasked_or_dispatch with hu | ⟨identity, line, hp, hchange⟩
    · exact .inl hu
    · have hserved : c.phase.served? = some identity := by rw [hp]; rfl
      exact .inr ⟨identity, line, hp, hchange, (h.inv.sound hc).serves hserved⟩
  refused {c t d identity owner} hsteps hp howner := by
    have hfree : Free s.hub.table c :=
      (h.inv.sound hsteps.1).free (by rw [hp]; trivial)
    obtain ⟨htable, hd⟩ := hsteps.turn.of_taken hp howner
    have hfree' : Free t.hub.table d := by
      intro x
      rw [hsteps.turn.id_eq, SessionTable.connectionOf, htable]
      exact hfree x
    refine ⟨?_, hd, htable, fun {u e v e'} hfollows hlater => ?_⟩
    · rintro rfl
      exact hfree _ howner
    · have hlast : d.phase.IsLast := by rw [hd]; trivial
      obtain ⟨-, hl, hf⟩ := hfollows.last (h.steps hsteps) hlast hfree'
      rw [(hlater.turn.last hl hf).1]
  ended {c t d} hsteps hp x hx := by
    have hsound := (h.inv.sound hsteps.1).turn hsteps.turn
    rw [← hsteps.turn.id_eq] at hx
    exact hsound.free (by rw [hp]; trivial) x hx
  absent {id} habsent x hx := by
    obtain ⟨c, hc, hid⟩ := h.inv.owned hx
    exact habsent c hc hid

/-! ## A race for a name -/

/-- A login on a new line ends as the name of a user whose key is known. -/
theorem exists_runs_respond (client own : PrivateKey) {store : KeyStore} {identity : String}
    (hs : CipherSuite.Lawful) (hi : Principal.IsValid identity)
    (hstore : store.find identity = .ok client.publicKey) (first : Option Duration)
    (limit : Duration) : ∃ es session,
      ((Session.new [.base64] own none).respond store first limit).Runs es (.ok identity, session) ∧
        session.identity = some identity := by
  have hconverse : Dialogue.Converse 1024 1024 _
      (Handshake.initiate ⟨client, some own.publicKey⟩ [.base64] identity limit)
      (Handshake.respond ⟨own, none⟩ [.base64] store first limit) [] [] :=
    Handshake.converse_initiate_respond hs (Nat.le_refl _) (Nat.le_refl _) hi hstore none limit
      limit first
  obtain ⟨-, es, -, o, -, h, a, secured, -, rfl, secrets, -, rfl⟩ := hconverse.exists_runs
  refine ⟨es ++ [], _, h.bind (.done _), rfl⟩

omit [CipherSuite] in
/-- Two lines log in under one name. The first to bind it owns it, and the other is turned away. -/
theorem ownership_of_race : ∃ (suite : CipherSuite) (client own : PrivateKey) (s : Server)
    (c d : Connection), suite = .between client.block own.block ∧
      Course s ∧ c ∈ s.connections ∧ d ∈ s.connections ∧ d.phase = .binding "alice" ∧
      s.hub.table.connectionOf "alice" = some c.id ∧ c.session.identity = some "alice" ∧
      ∃ t d', s.Steps d t d' ∧ d'.phase = .refusing .alreadyLoggedIn ∧
        t.hub.table.owners = s.hub.table.owners := by
  let client : PrivateKey := ⟨.zero 32⟩
  let own : PrivateKey := ⟨.ofPrefix 32 [1]⟩
  let suite := CipherSuite.between client.block own.block
  let store := KeyRing.toStore ⟨[("alice", client.publicKey)]⟩
  have hs : CipherSuite.Lawful := CipherSuite.lawful_between client.block own.block
  have hi : Principal.IsValid "alice" := by decide
  have hstore : store.find "alice" = .ok client.publicKey := rfl
  let settings : ServerSettings := {}
  obtain ⟨es, session, hruns, hsession⟩ := exists_runs_respond client own hs hi hstore
    (some settings.handshakeTimeout) settings.handshakeTimeout
  -- Two lines are opened, and both log in before either is bound.
  let c : Connection := .new 1 own
  let d : Connection := .new 2 own
  let s₀ := ((new settings own store .empty).accept).accept
  have h₀ : Course s₀ := course_of_opened (.accept (.accept (.new settings own store .empty)))
    (by decide)
  let hello (c : Connection) := loggedIn { c with session } (.ok "alice")
  have hstep (c : Connection) (hc : c = .new c.id own) :
      Dialogue.Runs (c.step store settings.handshakeTimeout) (es ++ []) (hello c) := by
    rw [hc]
    exact hruns.bind (.done _)
  have hconnections : s₀.connections = [d, c] := rfl
  let s₁ := s₀.settle 1 (hello c)
  have h₁ : Course s₁ := h₀.steps (c := c)
    ⟨by simp [hconnections], _, _, hstep c rfl, rfl, rfl⟩
  let s₂ := s₁.settle 2 (hello d)
  have h₂ : Course s₂ := h₁.steps (c := d)
    ⟨mem_settle.2 (.inr ⟨by simp [hconnections], by decide⟩), _, _, hstep d rfl, rfl, rfl⟩
  let c₂ : Connection := ⟨1, session, .binding "alice"⟩
  let d₂ : Connection := ⟨2, session, .binding "alice"⟩
  have hd₂ : d₂ ∈ s₂.connections := mem_settle.2 (.inl ⟨rfl, by simp [d₂]⟩)
  have hc₂ : c₂ ∈ s₂.connections :=
    mem_settle.2 (.inr ⟨mem_settle.2 (.inl ⟨rfl, by simp [c₂]⟩), by simp [c₂]⟩)
  let s₃ := s₂.settle 1 (c₂.bind "alice")
  have h₃ : Course s₃ := h₂.steps (c := c₂) ⟨hc₂, _, _, .done _, rfl, rfl⟩
  have hd₃ : d₂ ∈ s₃.connections := mem_settle.2 (.inr ⟨hd₂, by simp [d₂]⟩)
  have howner : s₃.hub.table.connectionOf "alice" = some 1 := rfl
  obtain ⟨c₃, hc₃, hid, -, hidentity, -⟩ := (ownership h₃).owner howner
  have hsteps : s₃.Steps d₂ (s₃.settle 2 (d₂.bind "alice")) (d₂.bind "alice" s₃.hub).2 :=
    ⟨hd₃, _, _, .done _, rfl, rfl⟩
  obtain ⟨-, hd', htable, -⟩ := (ownership h₃).refused hsteps rfl howner
  exact ⟨suite, client, own, s₃, c₃, d₂, rfl, h₃, hc₃, hd₃, rfl, by rw [hid]; exact howner,
    hidentity, _, _, hsteps, hd', htable⟩

end SealedChat.Server
