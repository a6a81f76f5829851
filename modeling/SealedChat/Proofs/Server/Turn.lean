import SealedChat.Proofs.Session.Identity
import SealedChat.Proofs.SessionTable
import SealedChat.Service.Connection

/-!
# Turns of a connection

Whatever the line answers, a step of a connection makes one of the changes that go with its phase
(`Makes`, `makes_of_runs`). What is known of a change is derived from that:

* what it can do to the connection and to the table of who is online (`Turn`, `Makes.turn`): all
  keep the table but three, the bind of a free identity, the release at a logout and the release at
  the end;
* that the handlers are asked in one phase only, for the identity and the line that the phase names
  (`Makes.unasked_or_dispatch`).
-/

namespace SealedChat

namespace Hub

variable (h : Hub)

@[simp]
theorem table_count (e : Metrics.Event) : (h.count e).table = h.table := rfl

@[simp]
theorem table_enter : h.enter.table = h.table := rfl

@[simp]
theorem table_blame (cause : ChatError) : (h.blame cause).table = h.table := by
  unfold blame
  split_ifs <;> rfl

@[simp]
theorem table_leave (cause : ChatError) : (h.leave cause).table = h.table := by
  simp [leave]

@[simp]
theorem table_release (identity : String) (connection : ConnectionId) :
    (h.release identity connection).table = (h.table.unbind identity connection).2 := by
  unfold release
  rcases h.table.unbind identity connection with ⟨_ | _, table⟩ <;> rfl

end Hub

namespace Connection

/-! ## The change that a step makes -/

/-- The change that a step makes, and what is known of the session by then. -/
inductive Makes (c : Connection) : Change → Prop
  | loggedIn {again : Bool} {session : Session} {o : Outcome String} : c.phase = .handshake again →
      (∀ identity, o = .ok identity → session.identity = some identity) →
        Makes c (loggedIn { c with session } o)
  | bind {identity : String} : c.phase = .binding identity → Makes c (c.bind identity)
  | refused {cause : ChatError} {session : Session} {o : Outcome Unit} :
      c.phase = .refusing cause → session.identity = c.session.identity →
        Makes c (refused { c with session } cause o)
  | requested {identity : String} {session : Session} {o : Outcome String} :
      c.phase = .serving identity → session.identity = c.session.identity →
        Makes c (requested { c with session } identity o)
  | dispatch {identity line : String} : c.phase = .dispatching identity line →
      Makes c (c.dispatch identity line)
  | replied {identity reply : String} {logout : Bool} {session : Session} {o : Outcome Unit} :
      c.phase = .replying identity reply logout → session.identity = c.session.identity →
        Makes c (replied { c with session } identity reply logout o)
  | unbind {identity : String} : c.phase = .unbinding identity → Makes c (c.unbind identity)
  | logout : c.phase = .loggingOut → Makes c c.logout
  | release {cause : ChatError} : c.phase = .releasing cause → Makes c (c.release cause)
  | leave {cause : ChatError} {session : Session} : c.phase = .closing cause →
      Makes c fun h => (h.leave cause, { c with session, phase := .ended })
  | rest : c.phase = .ended → Makes c fun h => (h, c)

open Dialogue in
theorem makes_of_runs [CipherSuite] {c : Connection} {store : KeyStore} {limit : Duration}
    {es : List Event} {change : Change} (h : (c.step store limit).Runs es change) :
    Makes c change := by
  cases hp : c.phase with
  | handshake again =>
    simp only [step, hp] at h
    obtain ⟨es₁, es₂, ⟨o, session⟩, rfl, h₁, h₂⟩ := runs_bind_iff.1 h
    obtain ⟨rfl, rfl⟩ := runs_done_iff.1 h₂
    refine .loggedIn hp ?_
    rintro identity rfl
    exact Session.identity_of_runs_login h₁
  | binding identity =>
    simp only [step, hp] at h
    obtain ⟨rfl, rfl⟩ := runs_done_iff.1 h
    exact .bind hp
  | refusing cause =>
    simp only [step, hp] at h
    obtain ⟨es₁, es₂, ⟨o, session⟩, rfl, h₁, h₂⟩ := runs_bind_iff.1 h
    obtain ⟨rfl, rfl⟩ := runs_done_iff.1 h₂
    exact .refused hp (Session.identity_of_runs_send h₁)
  | serving identity =>
    simp only [step, hp] at h
    obtain ⟨es₁, es₂, ⟨o, session⟩, rfl, h₁, h₂⟩ := runs_bind_iff.1 h
    obtain ⟨rfl, rfl⟩ := runs_done_iff.1 h₂
    exact .requested hp (Session.identity_of_runs_receive h₁)
  | dispatching identity line =>
    simp only [step, hp] at h
    obtain ⟨rfl, rfl⟩ := runs_done_iff.1 h
    exact .dispatch hp
  | replying identity reply logout =>
    simp only [step, hp] at h
    obtain ⟨es₁, es₂, ⟨o, session⟩, rfl, h₁, h₂⟩ := runs_bind_iff.1 h
    obtain ⟨rfl, rfl⟩ := runs_done_iff.1 h₂
    exact .replied hp (Session.identity_of_runs_send h₁)
  | unbinding identity =>
    simp only [step, hp] at h
    obtain ⟨rfl, rfl⟩ := runs_done_iff.1 h
    exact .unbind hp
  | loggingOut =>
    simp only [step, hp] at h
    obtain ⟨rfl, rfl⟩ := runs_done_iff.1 h
    exact .logout hp
  | releasing cause =>
    simp only [step, hp] at h
    obtain ⟨rfl, rfl⟩ := runs_done_iff.1 h
    exact .release hp
  | closing cause =>
    simp only [step, hp] at h
    obtain ⟨es₁, es₂, session, rfl, -, h₂⟩ := runs_bind_iff.1 h
    obtain ⟨rfl, rfl⟩ := runs_done_iff.1 h₂
    exact .leave hp
  | ended =>
    simp only [step, hp] at h
    obtain ⟨rfl, rfl⟩ := runs_done_iff.1 h
    exact .rest hp

/-! ## Turns -/

/-- Whom the connection serves in a phase. -/
def Phase.served? : Phase → Option String
  | .serving identity | .dispatching identity _ | .replying identity _ _ | .unbinding identity =>
    some identity
  | _ => none

/-- What a step can do to the connection and the table. -/
inductive Turn (c : Connection) (t : SessionTable) : SessionTable → Connection → Prop
  | loggedIn {again : Bool} {session : Session} {identity : String} :
      c.phase = .handshake again → session.identity = some identity →
        Turn c t t { c with session, phase := .binding identity }
  | bound {identity : String} : c.phase = .binding identity → t.connectionOf identity = none →
      Turn c t (t.bind identity c.id).2 { c with phase := .serving identity }
  | refused {identity : String} {owner : ConnectionId} :
      c.phase = .binding identity → t.connectionOf identity = some owner →
        Turn c t (t.bind identity c.id).2 { c with phase := .refusing .alreadyLoggedIn }
  | served {session : Session} {phase : Phase} {identity : String} :
      c.phase.served? = some identity → phase.served? = some identity →
        session.identity = c.session.identity → Turn c t t { c with session, phase }
  | unbound {identity : String} : c.phase = .unbinding identity →
      Turn c t (t.unbind identity c.id).2 { c with phase := .loggingOut }
  | loggedOut {session : Session} : c.phase = .loggingOut →
      Turn c t t { c with session, phase := .handshake true }
  | failed {session : Session} {cause : ChatError} :
      session.identity = c.session.identity ∨ (∃ again, c.phase = .handshake again) →
        (∀ identity, c.phase ≠ .binding identity) → (∀ cause, c.phase ≠ .closing cause) →
          c.phase ≠ .ended → Turn c t t { c with session, phase := .releasing cause }
  | released {cause : ChatError} : c.phase = .releasing cause →
      Turn c t (c.session.identity.elim t fun identity => (t.unbind identity c.id).2)
        { c with phase := .closing cause }
  | closed {session : Session} {cause : ChatError} : c.phase = .closing cause →
      Turn c t t { c with session, phase := .ended }
  | idle : c.phase = .ended → Turn c t t c

section

variable {c : Connection} {hub : Hub} {identity : String}

theorem turn_loggedIn {again : Bool} {session : Session} {o : Outcome String}
    (hp : c.phase = .handshake again) (ho : ∀ i, o = .ok i → session.identity = some i) :
    Turn c hub.table (loggedIn { c with session } o hub).1.table
      (loggedIn { c with session } o hub).2 := by
  cases o with
  | error e =>
    have ht : (loggedIn { c with session } (.error e) hub).1.table = hub.table := by
      simp only [loggedIn]
      split_ifs <;> rfl
    rw [ht]
    exact .failed (.inr ⟨again, hp⟩) (by simp [hp]) (by simp [hp]) (by simp [hp])
  | ok identity => exact .loggedIn hp (ho identity rfl)

theorem turn_bind (hp : c.phase = .binding identity) :
    Turn c hub.table (c.bind identity hub).1.table (c.bind identity hub).2 := by
  cases hc : hub.table.connectionOf identity with
  | none =>
    have h := Turn.bound hp hc
    rw [SessionTable.bind_of_free hc] at h
    simp only [bind, SessionTable.bind_of_free hc, Hub.table_count]
    exact h
  | some owner =>
    have h := Turn.refused hp hc
    rw [SessionTable.bind_of_taken hc] at h
    simp only [bind, SessionTable.bind_of_taken hc]
    exact h

theorem turn_refused {cause : ChatError} {session : Session} (o : Outcome Unit)
    (hp : c.phase = .refusing cause) (hs : session.identity = c.session.identity) :
    Turn c hub.table (refused { c with session } cause o hub).1.table
      (refused { c with session } cause o hub).2 := by
  cases o <;> exact .failed (.inl hs) (by simp [hp]) (by simp [hp]) (by simp [hp])

theorem turn_requested {session : Session} (o : Outcome String) (hp : c.phase = .serving identity)
    (hs : session.identity = c.session.identity) :
    Turn c hub.table (requested { c with session } identity o hub).1.table
      (requested { c with session } identity o hub).2 := by
  cases o with
  | error e => exact .failed (.inl hs) (by simp [hp]) (by simp [hp]) (by simp [hp])
  | ok line =>
    refine .served (by rw [hp]; rfl) ?_ hs
    split_ifs <;> rfl

theorem turn_replied {reply : String} {logout : Bool} {session : Session} (o : Outcome Unit)
    (hp : c.phase = .replying identity reply logout)
    (hs : session.identity = c.session.identity) :
    Turn c hub.table (replied { c with session } identity reply logout o hub).1.table
      (replied { c with session } identity reply logout o hub).2 := by
  cases o with
  | error e => exact .failed (.inl hs) (by simp [hp]) (by simp [hp]) (by simp [hp])
  | ok u =>
    refine .served (by rw [hp]; rfl) ?_ hs
    split_ifs <;> rfl

theorem turn_logout (hp : c.phase = .loggingOut) :
    Turn c hub.table (c.logout hub).1.table (c.logout hub).2 := by
  rcases hl : c.session.logout with ⟨e | _, session⟩
  · simp only [logout, hl]
    exact .failed (.inl (Session.identity_of_logout_error hl)) (by simp [hp]) (by simp [hp])
      (by simp [hp])
  · simp only [logout, hl]
    exact .loggedOut hp

theorem turn_release {cause : ChatError} (hp : c.phase = .releasing cause) :
    Turn c hub.table (c.release cause hub).1.table (c.release cause hub).2 := by
  have ht : (c.release cause hub).1.table =
      c.session.identity.elim hub.table fun identity => (hub.table.unbind identity c.id).2 := by
    simp only [release]
    cases c.session.identity <;> simp
  rw [ht]
  exact .released hp

/-- **Every step is a turn.** -/
theorem Makes.turn {change : Change} (h : c.Makes change) (hub : Hub) :
    Turn c hub.table (change hub).1.table (change hub).2 := by
  cases h with
  | loggedIn hp ho => exact turn_loggedIn hp ho
  | bind hp => exact turn_bind hp
  | refused hp hs => exact turn_refused _ hp hs
  | requested hp hs => exact turn_requested _ hp hs
  | dispatch hp => exact .served (by rw [hp]; rfl) rfl rfl
  | replied hp hs => exact turn_replied _ hp hs
  | unbind hp => simpa only [Connection.unbind, Hub.table_release] using Turn.unbound hp
  | logout hp => exact turn_logout hp
  | release hp => exact turn_release hp
  | leave hp => simpa only [Hub.table_leave] using Turn.closed hp
  | rest hp => exact .idle hp

end

/-! ## Who asks the handlers -/

/-- The change is the same for all handlers. -/
def Change.Unasked (change : Change) : Prop := ∀ (hub : Hub) (dispatcher : Dispatcher SessionTable),
  change { hub with dispatcher } = ({ (change hub).1 with dispatcher }, (change hub).2)

theorem unasked_loggedIn (c : Connection) (o : Outcome String) : Change.Unasked (c.loggedIn o) := by
  intro hub dispatcher
  cases o with
  | error e =>
    simp only [loggedIn]
    split_ifs <;> rfl
  | ok identity => rfl

theorem unasked_bind (c : Connection) (identity : String) : Change.Unasked (c.bind identity) := by
  intro hub dispatcher
  rcases hb : hub.table.bind identity c.id with ⟨e | _, table⟩
  · simp only [bind, hb]
  · simp only [bind, hb]
    rfl

theorem unasked_refused (c : Connection) (cause : ChatError) (o : Outcome Unit) :
    Change.Unasked (c.refused cause o) := by
  intro hub dispatcher
  cases o <;> rfl

theorem unasked_requested (c : Connection) (identity : String) (o : Outcome String) :
    Change.Unasked (c.requested identity o) := by
  intro hub dispatcher
  cases o <;> rfl

theorem unasked_replied (c : Connection) (identity reply : String) (logout : Bool)
    (o : Outcome Unit) : Change.Unasked (c.replied identity reply logout o) := by
  intro hub dispatcher
  cases o <;> rfl

theorem release_unasked (hub : Hub) (dispatcher : Dispatcher SessionTable) (identity : String)
    (connection : ConnectionId) : { hub with dispatcher }.release identity connection =
      { hub.release identity connection with dispatcher } := by
  rcases hu : hub.table.unbind identity connection with ⟨_ | _, table⟩
  · simp only [Hub.release, hu]
  · simp only [Hub.release, hu]
    rfl

theorem unasked_unbind (c : Connection) (identity : String) :
    Change.Unasked (c.unbind identity) := by
  intro hub dispatcher
  simp only [unbind, release_unasked]

theorem unasked_logout (c : Connection) : Change.Unasked c.logout := by
  intro hub dispatcher
  rcases hl : c.session.logout with ⟨e | _, session⟩
  · simp only [logout, hl]
  · simp only [logout, hl]
    rfl

theorem unasked_release (c : Connection) (cause : ChatError) :
    Change.Unasked (c.release cause) := by
  intro hub dispatcher
  cases hs : c.session.identity <;> simp [release, hs, release_unasked]

theorem unasked_leave (c : Connection) (cause : ChatError) :
    Change.Unasked fun hub => (hub.leave cause, c) := by
  intro hub dispatcher
  simp only [Hub.leave, Hub.blame]
  split_ifs <;> rfl

/-- Only a connection that dispatches asks the handlers, and it asks for the request of the identity
that it serves. -/
theorem Makes.unasked_or_dispatch {c : Connection} {change : Change} (h : c.Makes change) :
    change.Unasked ∨
      ∃ identity line, c.phase = .dispatching identity line ∧ change = c.dispatch identity line := by
  cases h with
  | dispatch hp => exact .inr ⟨_, _, hp, rfl⟩
  | loggedIn => exact .inl (unasked_loggedIn _ _)
  | bind => exact .inl (unasked_bind c _)
  | refused => exact .inl (unasked_refused _ _ _)
  | requested => exact .inl (unasked_requested _ _ _)
  | replied => exact .inl (unasked_replied _ _ _ _ _)
  | unbind => exact .inl (unasked_unbind c _)
  | logout => exact .inl (unasked_logout c)
  | release => exact .inl (unasked_release c _)
  | leave => exact .inl (unasked_leave _ _)
  | rest => exact .inl fun hub dispatcher => rfl

end Connection

end SealedChat
