import SealedChat.Proofs.Server.Turn

/-!
# What a step counts

Every step of a connection changes the counters of the hub by no more than what has happened in it
(`Balance`, `Makes.balance`): what is added to a counter is what goes from one phase to the next, or
in and out of the table. Words of 64 bits wrap around, and the laws hold for them as they are.
-/

namespace SealedChat

/-- What has been added to a counter from one hub to the next. -/
def Hub.gained (counter : Metrics → UInt64) (h h' : Hub) : Nat :=
  (counter h'.metrics - counter h.metrics).toNat

namespace Connection

namespace Phase

@[simp] def isOpen : Phase → Bool
  | ended => false
  | _ => true

@[simp] def isHandshake : Phase → Bool
  | handshake _ => true
  | _ => false

@[simp] def isBinding : Phase → Bool
  | binding _ => true
  | _ => false

/-- The connection ends because the other side has gone. -/
@[simp] def isLost : Phase → Bool
  | releasing cause => cause.isDisconnect
  | _ => false

/-- How many requests can have been counted when so many replies have been: one more while a reply
is due, and perhaps when the connection has ended. -/
@[simp] def Owes : Phase → Nat → Nat → Prop
  | dispatching _ _, received, sent | replying _ _ _, received, sent => received = sent + 1
  | releasing _, received, sent | closing _, received, sent | ended, received, sent =>
    received = sent ∨ received = sent + 1
  | _, received, sent => received = sent

theorem Owes.eq_or_eq {p : Phase} {received sent : Nat} (h : p.Owes received sent) :
    received = sent ∨ received = sent + 1 := by
  cases p with
  | dispatching | replying => exact .inr h
  | releasing | closing | ended => exact h
  | _ => exact .inl h

end Phase

/-- The counters before and after a step. -/
structure Balance (c : Connection) (h h' : Hub) (d : Connection) : Prop where
  active : h'.active + c.phase.isOpen.toUInt64 = h.active + d.phase.isOpen.toUInt64
  connections : h'.metrics.connectionsActive + c.phase.isOpen.toUInt64 =
    h.metrics.connectionsActive + d.phase.isOpen.toUInt64
  sessions : h'.metrics.sessionsBound + .ofNat h.table.size =
    h.metrics.sessionsBound + .ofNat h'.table.size
  binds : h'.table.totalBinds + h'.table.rejectedBinds + d.phase.isBinding.toUInt64 +
      h.metrics.handshakesSuccess =
    h.table.totalBinds + h.table.rejectedBinds + c.phase.isBinding.toUInt64 +
      h'.metrics.handshakesSuccess
  handshakes : h'.metrics.handshakesTotal + h.metrics.handshakesSuccess +
      h.metrics.handshakesFailed + c.phase.isHandshake.toUInt64 =
    h.metrics.handshakesTotal + h'.metrics.handshakesSuccess + h'.metrics.handshakesFailed +
      d.phase.isHandshake.toUInt64 + (c.phase.isHandshake && d.phase.isLost).toUInt64
  owes : ∀ received sent, c.phase.Owes received sent → d.phase.Owes
    (received + h.gained Metrics.messagesReceived h') (sent + h.gained Metrics.messagesSent h')
  errors : h.gained Metrics.decodingErrors h' ≤ h.gained Metrics.connectionErrors h'

@[simp] theorem toUInt64_true : true.toUInt64 = 1 := rfl

@[simp] theorem toUInt64_false : false.toUInt64 = 0 := rfl

/-- A counter that goes up by one has gained one, also where it wraps around. -/
@[simp] theorem toNat_succ_sub (x : UInt64) : (x + 1 - x).toNat = 1 := by
  rw [UInt64.add_comm, UInt64.add_sub_cancel]
  rfl

variable {c d : Connection} {h h' : Hub}

/-- A step that leaves the hub alone balances, if it changes nothing that is counted. -/
theorem balance_refl (hopen : d.phase.isOpen = c.phase.isOpen)
    (hb : d.phase.isBinding = c.phase.isBinding)
    (hh : d.phase.isHandshake = c.phase.isHandshake)
    (hlost : (c.phase.isHandshake && d.phase.isLost) = false)
    (howes : ∀ received sent, c.phase.Owes received sent → d.phase.Owes received sent) :
    Balance c h h d := by
  refine ⟨by rw [hopen], by rw [hopen], rfl, by rw [hb], ?_, fun r s hr => ?_, ?_⟩
  · rw [hh, hlost, toUInt64_false, UInt64.add_zero]
  · simpa [Hub.gained] using howes r s hr
  · simp [Hub.gained]

theorem balance_loggedIn {again : Bool} {session : Session} (o : Outcome String)
    (hp : c.phase = .handshake again) :
    Balance c h (loggedIn { c with session } o h).1 (loggedIn { c with session } o h).2 := by
  cases o with
  | error e =>
    simp only [loggedIn]
    split_ifs with hd
    · constructor <;> simp [hp, hd, Hub.gained]
    · constructor <;> simp [hp, hd, Hub.gained, Hub.count, Metrics.count]
      grind
  | ok identity =>
    constructor <;> simp [loggedIn, hp, Hub.gained, Hub.count, Metrics.count]
    · grind
    · grind

theorem balance_bind {identity : String} (hp : c.phase = .binding identity) :
    Balance c h (c.bind identity h).1 (c.bind identity h).2 := by
  cases hc : h.table.connectionOf identity with
  | none =>
    simp only [bind, SessionTable.bind_of_free hc]
    constructor <;> simp [hp, Hub.gained, Hub.count, Metrics.count, SessionTable.size]
    · grind
    · grind
  | some owner =>
    simp only [bind, SessionTable.bind_of_taken hc]
    constructor <;> simp [hp, Hub.gained, SessionTable.size]
    grind

theorem balance_refused {cause : ChatError} {session : Session} (o : Outcome Unit)
    (hp : c.phase = .refusing cause) :
    Balance c h (refused { c with session } cause o h).1
      (refused { c with session } cause o h).2 := by
  cases o with
  | error e => apply balance_refl <;> simp [refused, hp]
  | ok u => apply balance_refl <;> simp [refused, hp]

theorem balance_requested {identity : String} {session : Session} (o : Outcome String)
    (hp : c.phase = .serving identity) :
    Balance c h (requested { c with session } identity o h).1
      (requested { c with session } identity o h).2 := by
  cases o with
  | error e => apply balance_refl <;> simp [requested, hp]
  | ok line =>
    simp only [requested]
    split_ifs
    · constructor <;> simp [hp, Hub.gained, Hub.count, Metrics.count]
    · constructor <;> simp [hp, Hub.gained, Hub.count, Metrics.count]

theorem balance_replied {identity reply : String} {logout : Bool} {session : Session}
    (o : Outcome Unit) (hp : c.phase = .replying identity reply logout) :
    Balance c h (replied { c with session } identity reply logout o h).1
      (replied { c with session } identity reply logout o h).2 := by
  cases o with
  | error e =>
    apply balance_refl <;> simp [replied, hp]
    exact fun _ _ => .inr
  | ok u =>
    simp only [replied]
    split_ifs
    · constructor <;> simp [hp, Hub.gained, Hub.count, Metrics.count]
    · constructor <;> simp [hp, Hub.gained, Hub.count, Metrics.count]

theorem balance_logout (hp : c.phase = .loggingOut) :
    Balance c h (c.logout h).1 (c.logout h).2 := by
  rcases hl : c.session.logout with ⟨e | _, session⟩
  · simp only [logout, hl]
    apply balance_refl <;> simp [hp]
  · simp only [logout, hl]
    constructor <;> simp [hp, Hub.gained, Hub.count, Metrics.count]
    · grind

/-- Releasing an identity balances whatever it does to the table. -/
theorem balance_release (identity : String) (hk : h.table.Keyed)
    (hopen : d.phase.isOpen = c.phase.isOpen) (hb : d.phase.isBinding = c.phase.isBinding)
    (hh : d.phase.isHandshake = c.phase.isHandshake)
    (hlost : (c.phase.isHandshake && d.phase.isLost) = false)
    (howes : ∀ received sent, c.phase.Owes received sent → d.phase.Owes received sent) :
    Balance c h (h.release identity c.id) d := by
  by_cases hc : h.table.connectionOf identity = some c.id
  · obtain ⟨t, hu, hsize, htotal, hrejected⟩ := hk.exists_unbind hc
    simp only [Hub.release, hu]
    refine ⟨by rw [hopen]; rfl, by rw [hopen]; rfl, ?_, ?_, ?_, fun r s hr => ?_, ?_⟩
    · simp only [← hsize, UInt64.ofNat_add, Hub.count, Metrics.count]
      grind
    · simp only [htotal, hrejected, hb, Hub.count, Metrics.count]
    · rw [hh, hlost, toUInt64_false, UInt64.add_zero]
      rfl
    · simpa [Hub.gained, Hub.count, Metrics.count] using howes r s hr
    · simp [Hub.gained, Hub.count, Metrics.count]
  · rw [Hub.release, SessionTable.unbind_of_not_owner hc]
    exact balance_refl hopen hb hh hlost howes

theorem balance_leave {cause : ChatError} {session : Session} (hp : c.phase = .closing cause) :
    Balance c h (h.leave cause) { c with session, phase := .ended } := by
  unfold Hub.leave Hub.blame
  split_ifs
  all_goals
    constructor <;> simp [hp, Hub.gained, Hub.count, Metrics.count]

/-- **Every step balances.** -/
theorem Makes.balance {change : Change} (hm : c.Makes change) (hk : h.table.Keyed) :
    Balance c h (change h).1 (change h).2 := by
  cases hm with
  | loggedIn hp _ => exact balance_loggedIn _ hp
  | bind hp => exact balance_bind hp
  | refused hp _ => exact balance_refused _ hp
  | requested hp _ => exact balance_requested _ hp
  | dispatch hp => apply balance_refl <;> simp [Connection.dispatch, hp]
  | replied hp _ => exact balance_replied _ hp
  | unbind hp => apply balance_release _ hk <;> simp [Connection.unbind, hp]
  | logout hp => exact balance_logout hp
  | release hp =>
    simp only [Connection.release]
    cases c.session.identity with
    | none => apply balance_refl <;> simp [hp]
    | some identity => apply balance_release _ hk <;> simp [hp]
  | leave hp => exact balance_leave hp
  | rest hp => exact balance_refl rfl rfl rfl (by simp [hp]) fun _ _ hr => hr

/-- A turn brings at most one identity more online. -/
theorem Turn.size_le {t t' : SessionTable} (h : Turn c t t' d) : t'.size ≤ t.size + 1 := by
  cases h with
  | bound | refused => exact SessionTable.size_bind_le _ _
  | unbound => exact Nat.le_succ_of_le (SessionTable.size_unbind_le _ _)
  | released =>
    cases c.session.identity with
    | none => exact Nat.le_succ _
    | some identity => exact Nat.le_succ_of_le (SessionTable.size_unbind_le _ _)
  | loggedIn | served | loggedOut | failed | closed | idle => exact Nat.le_succ _

end Connection

end SealedChat
