import Mathlib.Data.List.Perm.Subperm
import SealedChat.Proofs.Server.Balance
import SealedChat.Proofs.Server.Ownership

/-!
# The books of a server

**Theorem (`accounting`).** On every course of a server the counters agree with the connections that
are open, with the table, and with each other (`Accounts`).

Some of the laws are about things that no counter tells apart: which handshakes have ended because
the other side had gone, and which connection has counted a request or a reply. A ledger notes them
along the course (`Ledger`, `Counted`); it changes nothing, and every course has one
(`Course.exists_counted`).

Each law is kept because each step balances (`Makes.balance`), and what a step changes in the
connections is that one of them goes from one phase to the next (`among_settle`).
-/

namespace SealedChat.Server

open Connection

variable {s t : Server} {c d : Connection}

/-! ## Connections in a phase -/

/-- How many connections are in such a phase. -/
def among (s : Server) (p : Phase → Bool) : Nat := s.connections.countP fun c => p c.phase

theorem perm_cons_filter {l : List Connection} (h : (l.map Connection.id).Nodup) (hc : c ∈ l) :
    l.Perm (c :: l.filter (·.id ≠ c.id)) := by
  induction l with
  | nil => cases hc
  | cons a l ih =>
    rw [List.map_cons, List.nodup_cons] at h
    have hne : ∀ b ∈ l, b.id ≠ a.id := fun b hb hid => h.1 (List.mem_map.2 ⟨b, hb, hid⟩)
    rcases List.mem_cons.1 hc with rfl | hc
    · have hkeep : l.filter (·.id ≠ c.id) = l := by
        rw [List.filter_eq_self]
        simpa using hne
      rw [List.filter_cons_of_neg (by simp), hkeep]
    · rw [List.filter_cons_of_pos (by simpa using (hne c hc).symm)]
      exact ((ih h.2 hc).cons a).trans (.swap c a _)

/-- **A step moves one connection from its phase to the next**, and leaves the others where they
are. -/
theorem among_settle {p : Phase → Bool} (hp : p .ended = false) (h : s.Distinct)
    (hc : c ∈ s.connections) (change : Change) :
    (s.settle c.id change).among p + (p c.phase).toNat =
      s.among p + (p (change s.hub).2.phase).toNat := by
  have hperm := (perm_cons_filter h hc).countP_eq fun c => p c.phase
  have hsettle : (s.settle c.id change).among p =
      (s.connections.filter (·.id ≠ c.id)).countP (fun c => p c.phase) +
        (p (change s.hub).2.phase).toNat := by
    simp only [among, settle]
    split_ifs with hd
    · simp [hd, hp]
    · rw [List.countP_cons]
      cases p (change s.hub).2.phase <;> rfl
  rw [hsettle, among, hperm, List.countP_cons]
  cases p c.phase
  · simp
  · simp
    omega

/-- The same in words of 64 bits. -/
theorem ofNat_among_settle {p : Phase → Bool} (hp : p .ended = false) (h : s.Distinct)
    (hc : c ∈ s.connections) (change : Change) :
    UInt64.ofNat ((s.settle c.id change).among p) + (p c.phase).toUInt64 =
      .ofNat (s.among p) + (p (change s.hub).2.phase).toUInt64 := by
  have hword (b : Bool) : UInt64.ofNat b.toNat = b.toUInt64 := by cases b <;> rfl
  rw [← hword, ← hword, ← UInt64.ofNat_add, ← UInt64.ofNat_add, among_settle hp h hc]

theorem length_settle_le (hc : c ∈ s.connections) (change : Change) :
    (s.settle c.id change).connections.length ≤ s.connections.length := by
  have hlt : (s.connections.filter (·.id ≠ c.id)).length < s.connections.length :=
    List.length_filter_lt_length_iff_exists.2 ⟨c, hc, by simp⟩
  simp only [settle]
  split_ifs
  · exact Nat.le_of_lt hlt
  · exact hlt

/-- No more identities are online than connections are open. -/
theorem Inv.size_le (h : Inv s) : s.hub.table.size ≤ s.connections.length := by
  have hids : (s.hub.table.owners.map Prod.snd).Nodup := by
    refine List.Nodup.map_on ?_ (List.Nodup.of_map _ h.keyed)
    rintro ⟨x, id⟩ hx ⟨y, _⟩ hy rfl
    have hx := h.keyed.connectionOf_of_mem hx
    have hy := h.keyed.connectionOf_of_mem hy
    obtain ⟨c, hc, rfl⟩ := h.owned hx
    rw [(h.sound hc).eq_of_owned hx hy]
  have hopen : s.hub.table.owners.map Prod.snd ⊆ s.connections.map Connection.id := by
    intro id hid
    obtain ⟨⟨x, _⟩, hx, rfl⟩ := List.mem_map.1 hid
    obtain ⟨c, hc, hcid⟩ := h.owned (h.keyed.connectionOf_of_mem hx)
    exact List.mem_map.2 ⟨c, hc, hcid⟩
  simpa [SessionTable.size] using (List.subperm_of_subset hids hopen).length_le

/-! ## Ledgers -/

/-- What no counter tells apart. -/
structure Ledger where
  /-- The handshakes that ended because the other side had gone. -/
  lost : Nat
  decodingErrors : Nat
  connectionErrors : Nat
  /-- The requests and the replies that the connection of this number has counted. -/
  received : ConnectionId → Nat
  sent : ConnectionId → Nat

namespace Ledger

def blank : Ledger := ⟨0, 0, 0, fun _ => 0, fun _ => 0⟩

/-- A new connection has counted nothing. -/
def enter (l : Ledger) (id : ConnectionId) : Ledger :=
  { l with received := Function.update l.received id 0, sent := Function.update l.sent id 0 }

/-- A line could not be opened. -/
def miss (l : Ledger) : Ledger := { l with connectionErrors := l.connectionErrors + 1 }

/-- What a step of a connection adds to the hub is put down to it. -/
def step (l : Ledger) (c d : Connection) (h h' : Hub) : Ledger where
  lost := l.lost + (c.phase.isHandshake && d.phase.isLost).toNat
  decodingErrors := l.decodingErrors + h.gained Metrics.decodingErrors h'
  connectionErrors := l.connectionErrors + h.gained Metrics.connectionErrors h'
  received := Function.update l.received c.id
    (l.received c.id + h.gained Metrics.messagesReceived h')
  sent := Function.update l.sent c.id (l.sent c.id + h.gained Metrics.messagesSent h')

end Ledger

variable {l : Ledger}

/-- A line that is opened now is dropped. -/
def IsFull (s : Server) : Prop := (s.stopping || s.settings.maxConnections ≤ s.hub.active) = true

instance (s : Server) : Decidable s.IsFull := inferInstanceAs (Decidable (_ = true))

theorem accept_of_isFull (h : s.IsFull) : s.accept = s := if_pos h

/-- A course of a server, with its ledger. -/
inductive Counted [CipherSuite] : Server → Ledger → Prop
  | new (settings : ServerSettings) (own : PrivateKey) (store : KeyStore)
      (dispatcher : Dispatcher SessionTable) : Counted (new settings own store dispatcher) .blank
  | accept {s : Server} {l : Ledger} : Counted s l → ¬s.IsFull → s.accept.Distinct →
      Counted s.accept (l.enter s.nextId)
  | missed {s : Server} {l : Ledger} : Counted s l → Counted s.missed l.miss
  | step {s t : Server} {c d : Connection} {l : Ledger} : Counted s l → s.Steps c t d →
      Counted t (l.step c d s.hub t.hub)
  | register {s : Server} {l : Ledger} (command : String) (handler : Handler SessionTable) :
      Counted s l → Counted (s.register command handler) l
  | shutdown {s : Server} {l : Ledger} : Counted s l → Counted s.shutdown l

section

variable [CipherSuite]

/-- The ledger belongs to a course of the server. -/
theorem Counted.course (h : Counted s l) : Course s := by
  induction h with
  | new settings own store dispatcher => exact .new settings own store dispatcher
  | accept _ _ hd ih => exact ih.move (.accept _) hd
  | missed _ ih => exact ih.move (.missed _) ih.inv.distinct
  | step _ hs ih => exact ih.steps hs
  | register command handler _ ih => exact ih.move (.register _ command handler) ih.inv.distinct
  | shutdown _ ih => exact ih.move (.shutdown _) ih.inv.distinct

theorem Counted.exists_moves (h : Counted s l) (hm : Moves s t) (hd : t.Distinct) :
    ∃ l', Counted t l' := by
  cases hm with
  | accept =>
    by_cases hfull : s.IsFull
    · rw [accept_of_isFull hfull]
      exact ⟨l, h⟩
    · exact ⟨_, h.accept hfull hd⟩
  | missed => exact ⟨_, h.missed⟩
  | step hc hruns => exact ⟨_, h.step ⟨hc, _, _, hruns, rfl, rfl⟩⟩
  | register command handler => exact ⟨l, h.register command handler⟩
  | shutdown => exact ⟨l, h.shutdown⟩

/-- Every course of a server has a ledger. -/
theorem Course.exists_counted (h : Course s) : ∃ l, Counted s l := by
  induction h with
  | new settings own store dispatcher => exact ⟨_, .new settings own store dispatcher⟩
  | move _ hm hd ih =>
    obtain ⟨l, ih⟩ := ih
    exact ih.exists_moves hm hd

end

/-! ## The laws -/

/-- The laws in words of 64 bits, as they are kept from step to step. -/
structure Books (s : Server) (l : Ledger) : Prop where
  present : ∀ c ∈ s.connections, c.phase.isOpen = true
  active : s.hub.active = .ofNat (s.among Phase.isOpen)
  connections : s.hub.metrics.connectionsActive = s.hub.active
  le : s.connections.length ≤ s.settings.maxConnections.toNat
  sessions : s.hub.metrics.sessionsBound = .ofNat s.hub.table.size
  binds : s.hub.table.totalBinds + s.hub.table.rejectedBinds + .ofNat (s.among Phase.isBinding) =
    s.hub.metrics.handshakesSuccess
  handshakes : s.hub.metrics.handshakesTotal = s.hub.metrics.handshakesSuccess +
    s.hub.metrics.handshakesFailed + .ofNat (s.among Phase.isHandshake) + .ofNat l.lost
  owes : ∀ c ∈ s.connections, c.phase.Owes (l.received c.id) (l.sent c.id)
  replies : ∀ id, l.received id = l.sent id ∨ l.received id = l.sent id + 1
  decodingErrors : s.hub.metrics.decodingErrors = .ofNat l.decodingErrors
  connectionErrors : s.hub.metrics.connectionErrors = .ofNat l.connectionErrors
  errors : l.decodingErrors ≤ l.connectionErrors

theorem Books.among_isOpen (h : Books s l) : s.among Phase.isOpen = s.connections.length :=
  List.countP_eq_length.2 h.present

theorem Books.toNat_active (h : Books s l) : s.hub.active.toNat = s.connections.length := by
  rw [h.active, h.among_isOpen, UInt64.toNat_ofNat_of_lt']
  exact Nat.lt_of_le_of_lt h.le s.settings.maxConnections.toNat_lt

theorem books_new (settings : ServerSettings) (own : PrivateKey) (store : KeyStore)
    (dispatcher : Dispatcher SessionTable) : Books (new settings own store dispatcher) .blank where
  present := nofun
  active := rfl
  connections := rfl
  le := Nat.zero_le _
  sessions := rfl
  binds := rfl
  handshakes := rfl
  owes := nofun
  replies _ := .inl rfl
  decodingErrors := rfl
  connectionErrors := rfl
  errors := Nat.le_refl _

theorem Books.accept (h : Books s l) (hfull : ¬s.IsFull) (hd : s.accept.Distinct) :
    Books s.accept (l.enter s.nextId) := by
  have hlt : s.hub.active < s.settings.maxConnections := by
    simp only [IsFull, Bool.or_eq_true, decide_eq_true_eq, not_or, UInt64.not_le] at hfull
    exact hfull.2
  have haccept : s.accept = { s with
      hub := s.hub.enter
      nextId := s.nextId + 1
      connections := .new s.nextId s.own :: s.connections } := if_neg hfull
  have hnew : ∀ c ∈ s.connections, c.id ≠ s.nextId := by
    rw [haccept] at hd
    intro c hc hid
    exact (List.nodup_cons.1 hd).1 (List.mem_map.2 ⟨c, hc, hid⟩)
  have hamong (p : Phase → Bool) : UInt64.ofNat (s.accept.among p) =
      .ofNat (s.among p) + (p (.handshake false)).toUInt64 := by
    rw [haccept, among, List.countP_cons, UInt64.ofNat_add]
    refine congrArg (_ + ·) ?_
    show UInt64.ofNat (if p (.handshake false) = true then 1 else 0) = _
    cases p (.handshake false) <;> rfl
  have hcount : s.accept.hub = s.hub.enter := by rw [haccept]
  refine ⟨?_, ?_, ?_, ?_, ?_, ?_, ?_, ?_, ?_, ?_, ?_, h.errors⟩
  · rw [haccept]
    intro c hc
    rcases List.mem_cons.1 hc with rfl | hc
    · rfl
    · exact h.present c hc
  · rw [hamong, ← h.active, hcount]
    rfl
  · rw [hcount]
    exact congrArg (· + 1) h.connections
  · have hle := UInt64.lt_iff_toNat_lt.1 hlt
    rw [h.toNat_active] at hle
    rw [haccept]
    exact hle
  · rw [hcount]
    exact h.sessions
  · rw [hamong, hcount]
    simpa [Hub.enter, Hub.count, Metrics.count] using h.binds
  · rw [hamong, hcount]
    have hhandshakes := h.handshakes
    simp [Hub.enter, Hub.count, Metrics.count, Ledger.enter]
    grind
  · rw [haccept]
    intro c hc
    rcases List.mem_cons.1 hc with rfl | hc
    · simp [Ledger.enter, Connection.new]
    · simpa [Ledger.enter, hnew c hc] using h.owes c hc
  · intro id
    by_cases hid : id = s.nextId
    · simp [Ledger.enter, hid]
    · simpa [Ledger.enter, hid] using h.replies id
  · rw [hcount]
    exact h.decodingErrors
  · rw [hcount]
    exact h.connectionErrors

/-- What is gained by a counter goes to the ledger. -/
theorem ofNat_add_gained {counter : Metrics → UInt64} {h h' : Hub} {n : Nat}
    (hn : counter h.metrics = .ofNat n) :
    counter h'.metrics = .ofNat (n + h.gained counter h') := by
  rw [UInt64.ofNat_add, ← hn, Hub.gained, UInt64.ofNat_toNat]
  grind

/-- **A step of one connection keeps the books.** -/
theorem Books.step [CipherSuite] (h : Books s l) (hi : Inv s) (hsteps : s.Steps c t d) :
    Books t (l.step c d s.hub t.hub) := by
  have hid := hsteps.turn.id_eq
  obtain ⟨hc, es, change, hruns, rfl, rfl⟩ := hsteps
  have hb := (makes_of_runs hruns).balance (h := s.hub) hi.keyed
  have hopen := ofNat_among_settle (p := Phase.isOpen) rfl hi.distinct hc change
  have hbinding := ofNat_among_settle (p := Phase.isBinding) rfl hi.distinct hc change
  have hhandshake := ofNat_among_settle (p := Phase.isHandshake) rfl hi.distinct hc change
  have howes := hb.owes _ _ (h.owes c hc)
  have hhub : (s.settle c.id change).hub = (change s.hub).1 := rfl
  refine ⟨?_, ?_, ?_, ?_, ?_, ?_, ?_, ?_, ?_, ?_, ?_, ?_⟩
  · intro d hd
    rcases mem_settle.1 hd with ⟨rfl, hne⟩ | ⟨hd, -⟩
    · cases hp : (change s.hub).2.phase with
      | ended => exact absurd hp hne
      | _ => rfl
    · exact h.present d hd
  · have hactive := hb.active
    have hbefore := h.active
    rw [hhub]
    grind
  · have hactive := hb.active
    have hconnections := hb.connections
    have hbefore := h.connections
    rw [hhub]
    grind
  · exact Nat.le_trans (length_settle_le hc change) h.le
  · have hsessions := hb.sessions
    have hbefore := h.sessions
    rw [hhub]
    grind
  · have hbinds := hb.binds
    have hbefore := h.binds
    rw [hhub]
    grind
  · have hhandshakes := hb.handshakes
    have hbefore := h.handshakes
    have hword : UInt64.ofNat (c.phase.isHandshake && (change s.hub).2.phase.isLost).toNat =
        (c.phase.isHandshake && (change s.hub).2.phase.isLost).toUInt64 := by
      cases c.phase.isHandshake && (change s.hub).2.phase.isLost <;> rfl
    rw [hhub, Ledger.step, UInt64.ofNat_add, hword]
    grind
  · intro d hd
    rcases mem_settle.1 hd with ⟨rfl, -⟩ | ⟨hd, hne⟩
    · simpa only [hid, Ledger.step, Function.update_self, hhub] using howes
    · simpa only [Ledger.step, Function.update_of_ne hne] using h.owes d hd
  · intro id
    by_cases hidc : id = c.id
    · simpa only [hidc, Ledger.step, Function.update_self, hhub] using howes.eq_or_eq
    · simpa only [Ledger.step, Function.update_of_ne hidc] using h.replies id
  · exact ofNat_add_gained h.decodingErrors
  · exact ofNat_add_gained h.connectionErrors
  · exact Nat.add_le_add h.errors hb.errors

/-- **Every course keeps the books.** -/
theorem Counted.books [CipherSuite] (h : Counted s l) : Books s l := by
  induction h with
  | new settings own store dispatcher => exact books_new settings own store dispatcher
  | accept _ hfull hd ih => exact ih.accept hfull hd
  | @missed s l _ ih =>
    refine ⟨ih.present, ih.active, ih.connections, ih.le, ih.sessions, ih.binds, ih.handshakes,
      ih.owes, ih.replies, ih.decodingErrors, ?_, Nat.le_succ_of_le ih.errors⟩
    rw [Ledger.miss, UInt64.ofNat_add, ← ih.connectionErrors]
    rfl
  | step hl hsteps ih => exact ih.step hl.course.inv hsteps
  | register | shutdown =>
    rename_i ih
    exact ⟨ih.present, ih.active, ih.connections, ih.le, ih.sessions, ih.binds, ih.handshakes,
      ih.owes, ih.replies, ih.decodingErrors, ih.connectionErrors, ih.errors⟩

/-! ## The theorem -/

/-- One more connection at most, and one more identity. -/
theorem Moves.length_le [CipherSuite] (h : Moves s t) :
    t.connections.length ≤ s.connections.length + 1 ∧
      t.hub.table.size ≤ s.hub.table.size + 1 := by
  cases h with
  | accept =>
    unfold Server.accept
    split_ifs
    · exact ⟨Nat.le_succ _, Nat.le_succ _⟩
    · exact ⟨Nat.le_refl _, Nat.le_succ _⟩
  | step hc hruns =>
    exact ⟨Nat.le_succ_of_le (length_settle_le hc _), ((makes_of_runs hruns).turn s.hub).size_le⟩
  | missed | register | shutdown => exact ⟨Nat.le_succ _, Nat.le_succ _⟩

/-- What the counters of a server say. -/
structure Accounts [CipherSuite] (s : Server) (l : Ledger) : Prop where
  /-- Both counters of open connections are exact. -/
  active : s.hub.active.toNat = s.connections.length ∧
    s.hub.metrics.connectionsActive = s.hub.active
  /-- There are no more connections than the settings allow. -/
  le : s.connections.length ≤ s.settings.maxConnections.toNat
  /-- The counter of identities that are online is exact. -/
  sessions : s.hub.metrics.sessionsBound.toNat = s.hub.table.size
  /-- Every login binds its identity or is turned away, but for those that are about to. -/
  binds : s.hub.table.totalBinds + s.hub.table.rejectedBinds + .ofNat (s.among Phase.isBinding) =
    s.hub.metrics.handshakesSuccess
  /-- While nobody is about to, every login has done so. -/
  settled : (∀ c ∈ s.connections, c.phase.isBinding = false) →
    s.hub.table.totalBinds + s.hub.table.rejectedBinds = s.hub.metrics.handshakesSuccess
  /-- Every handshake has succeeded or failed or was given up by the other side, or goes on. -/
  handshakes : s.hub.metrics.handshakesTotal = s.hub.metrics.handshakesSuccess +
    s.hub.metrics.handshakesFailed + .ofNat (s.among Phase.isHandshake) + .ofNat l.lost
  /-- On no connection is more than one reply due. -/
  replies : ∀ id, l.received id = l.sent id ∨ l.received id = l.sent id + 1
  /-- Both counters of errors are those of the ledger, which counts every decoding error twice. -/
  errors : s.hub.metrics.decodingErrors = .ofNat l.decodingErrors ∧
    s.hub.metrics.connectionErrors = .ofNat l.connectionErrors ∧
    l.decodingErrors ≤ l.connectionErrors ∧
    (l.connectionErrors < 2 ^ 64 →
      s.hub.metrics.decodingErrors ≤ s.hub.metrics.connectionErrors)
  /-- Nothing is taken from a counter that is zero. -/
  positive : ∀ {t}, Moves s t → t.Distinct →
    (t.hub.active = s.hub.active - 1 → 0 < s.hub.active) ∧
    (t.hub.metrics.connectionsActive = s.hub.metrics.connectionsActive - 1 →
      0 < s.hub.metrics.connectionsActive) ∧
    (t.hub.metrics.sessionsBound = s.hub.metrics.sessionsBound - 1 →
      0 < s.hub.metrics.sessionsBound)

theorem Counted.toNat_sessionsBound [CipherSuite] (h : Counted s l) :
    s.hub.metrics.sessionsBound.toNat = s.hub.table.size := by
  have hbooks := h.books
  have hle := Nat.le_trans h.course.inv.size_le hbooks.le
  rw [hbooks.sessions, UInt64.toNat_ofNat_of_lt']
  exact Nat.lt_of_le_of_lt hle s.settings.maxConnections.toNat_lt

/-- A counter of what there are few more of afterwards was not zero before it went down. -/
theorem pos_of_sub {x y : UInt64} {m n : Nat} (hx : x.toNat = m) (hy : y.toNat = n)
    (hle : n ≤ m + 1) (h : y = x - 1) : 0 < x := by
  by_contra hzero
  have hzero : x = 0 := by grind
  subst hzero
  have hy' : y.toNat = 2 ^ 64 - 1 := by
    rw [h]
    rfl
  have hm : m = 0 := hx.symm
  omega

/-- **The books of a server are in order**, on every course. -/
theorem accounting [CipherSuite] (h : Course s) :
    (∃ l, Counted s l) ∧ ∀ l, Counted s l → Accounts s l := by
  refine ⟨h.exists_counted, fun l hl => ?_⟩
  have hbooks := hl.books
  refine ⟨⟨hbooks.toNat_active, hbooks.connections⟩, hbooks.le, hl.toNat_sessionsBound,
    hbooks.binds, fun hrest => ?_, hbooks.handshakes, hbooks.replies,
    ⟨hbooks.decodingErrors, hbooks.connectionErrors, hbooks.errors, fun hlt => ?_⟩,
    fun {t} hm hd => ?_⟩
  · have hnone : s.among Phase.isBinding = 0 := by
      refine List.countP_eq_zero.2 fun c hc => ?_
      rw [hrest c hc]
      decide
    have hbinds := hbooks.binds
    rw [hnone] at hbinds
    simpa using hbinds
  · rw [hbooks.decodingErrors, hbooks.connectionErrors, UInt64.le_iff_toNat_le,
      UInt64.toNat_ofNat_of_lt' hlt,
      UInt64.toNat_ofNat_of_lt' (Nat.lt_of_le_of_lt hbooks.errors hlt)]
    exact hbooks.errors
  · obtain ⟨l', hl'⟩ := hl.exists_moves hm hd
    obtain ⟨hlength, hsize⟩ := hm.length_le
    have hactive := hl'.books.toNat_active
    refine ⟨pos_of_sub hbooks.toNat_active hactive hlength, ?_,
      pos_of_sub hl.toNat_sessionsBound hl'.toNat_sessionsBound hsize⟩
    rw [hbooks.connections, hl'.books.connections]
    exact pos_of_sub hbooks.toNat_active hactive hlength

/-- One line is opened, somebody logs in on it, and is bound. -/
theorem accounting_of_login : ∃ (suite : CipherSuite) (client own : PrivateKey) (s : Server)
    (l : Ledger), suite = .between client.block own.block ∧ Course s ∧ Counted s l ∧
      s.hub.active.toNat = 1 ∧ s.hub.metrics.sessionsBound.toNat = 1 ∧ Accounts s l := by
  let client : PrivateKey := ⟨.zero 32⟩
  let own : PrivateKey := ⟨.ofPrefix 32 [1]⟩
  let suite := CipherSuite.between client.block own.block
  let store := KeyRing.toStore ⟨[("alice", client.publicKey)]⟩
  have hs : CipherSuite.Lawful := CipherSuite.lawful_between client.block own.block
  have hi : Principal.IsValid "alice" := by decide
  have hstore : store.find "alice" = .ok client.publicKey := rfl
  let settings : ServerSettings := {}
  obtain ⟨es, session, hruns, -⟩ := exists_runs_respond client own hs hi hstore
    (some settings.handshakeTimeout)
    settings.handshakeTimeout
  let c : Connection := .new 1 own
  let hello := loggedIn { c with session } (.ok "alice")
  let c₁ : Connection := ⟨1, session, .binding "alice"⟩
  let s₀ := (new settings own store .empty).accept
  let s₁ := s₀.settle 1 hello
  let s₂ := s₁.settle 1 (c₁.bind "alice")
  have h₀ : Course s₀ := course_of_opened (.accept (.new settings own store .empty)) (by decide)
  have h₁ : Course s₁ := h₀.steps (c := c)
    ⟨List.mem_singleton.2 rfl, _, _, hruns.bind (.done hello), rfl, rfl⟩
  have h₂ : Course s₂ := h₁.steps (c := c₁)
    ⟨mem_settle.2 (.inl ⟨rfl, by simp [c₁]⟩), _, _, .done _, rfl, rfl⟩
  obtain ⟨⟨l, hl⟩, haccounts⟩ := accounting h₂
  have haccounts := haccounts l hl
  refine ⟨suite, client, own, s₂, l, rfl, h₂, hl, ?_, ?_, haccounts⟩
  · rw [haccounts.active.1]
    rfl
  · rw [haccounts.sessions]
    rfl

end SealedChat.Server
