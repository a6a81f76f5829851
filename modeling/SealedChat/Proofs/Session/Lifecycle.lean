import SealedChat.Proofs.Handshake.Honest
import SealedChat.Proofs.Handshake.Kept
import SealedChat.Proofs.History
import SealedChat.Session

/-!
# The life of a session

A session is called again and again, in any order: it logs in either way, logs out, talks and closes,
and every login and every transfer may go as it likes. What has happened is a `History` of its turns,
each a call with what was done on the line and what came back.

**Turns** (`Goes`, `Takes.goes`). A turn is refused, logs somebody in, logs him out, is traffic of
his, or closes the session and its line. A call that the stage does not allow is refused, which does
nothing on the line and changes nothing (`Takes.refused`).

**The invariant** (`Lived`). The own key and the pinned one are those that the session was made with,
and so are the layers below its top one, whatever they have counted. Somebody who is logged in is the
last who has logged in. The line was closed if the session is, as the last thing that happened.

Main result: `Session.lifecycle`.
-/

namespace SealedChat.Session

open Dialogue

/-- The ways to log in. -/
inductive Login where
  | initiate (identity : String) (limit : Duration)
  | respond (store : KeyStore) (limit : Duration)
  | respondIdle (store : KeyStore) (limit : Duration)

/-- A call of a session, what has happened on the line meanwhile, and what it has returned. -/
inductive Turn where
  | login (l : Login) (es : List Event) (result : Outcome String)
  | logout (result : Outcome String)
  | send (payload : Bytes) (es : List Event) (result : Outcome Unit)
  | receive (limit : Option Duration) (es : List Event) (result : Outcome Bytes)
  | close (es : List Event)

namespace Turn

def events : Turn → List Event
  | login _ es _ => es
  | logout _ => []
  | send _ es _ => es
  | receive _ es _ => es
  | close es => es

/-- Who has logged in. -/
def loggedIn? : Turn → Option String
  | login _ _ result => result.toOption
  | _ => none

def IsTraffic : Turn → Prop
  | send _ _ _ => True
  | receive _ _ _ => True
  | _ => False

/-- The stages in which a call does what it is for. -/
def IsAllowed (stage : Stage) : Turn → Prop
  | login _ _ _ => ∃ inner, stage = .unauthenticated inner
  | logout _ => ∃ cipher inner identity, stage = .authenticated cipher inner identity
  | send _ _ _ => ∃ cipher inner identity, stage = .authenticated cipher inner identity
  | receive _ _ _ => ∃ cipher inner identity, stage = .authenticated cipher inner identity
  | close _ => True

/-- The call has returned its refusal, and nothing has happened on the line. -/
def IsRefused (s : Session) : Turn → Prop
  | login _ es result => es = [] ∧ result = .error .wrongStage
  | logout result => result = .error .notLoggedIn
  | send _ es result => es = [] ∧ result = .error s.refusal
  | receive _ es result => es = [] ∧ result = .error s.refusal
  | close es => es = []

theorem IsRefused.events_eq {s : Session} {t : Turn} (h : t.IsRefused s) : t.events = [] := by
  cases t with
  | login => exact h.1
  | logout => rfl
  | send => exact h.1
  | receive => exact h.1
  | close => exact h

theorem IsRefused.loggedIn?_eq {s : Session} {t : Turn} (h : t.IsRefused s) :
    t.loggedIn? = none := by
  cases t with
  | login =>
    obtain ⟨-, rfl⟩ := h
    rfl
  | _ => rfl

theorem IsTraffic.loggedIn?_eq {t : Turn} (h : t.IsTraffic) : t.loggedIn? = none := by
  cases t with
  | login => exact h.elim
  | _ => rfl

end Turn

variable {s s' : Session} {t : Turn} {turns : List Turn} {es : List Event} {inner : Channel}

/-! ## What has happened -/

/-- All that has happened on the line. -/
def eventsOf (turns : List Turn) : List Event := turns.flatMap Turn.events

/-- Who has logged in last. -/
def lastLogin (turns : List Turn) : Option String := (turns.filterMap Turn.loggedIn?).getLast?

/-- How a stage goes with what has happened. -/
def Stage.Fits (inner : Channel) (turns : List Turn) : Stage → Prop
  | .unauthenticated inner' => inner'.renewed = inner.renewed ∧ .closed ∉ eventsOf turns
  | .authenticated _ inner' identity =>
    inner'.renewed = inner.renewed ∧ .closed ∉ eventsOf turns ∧ lastLogin turns = some identity
  | .closed => ∃ es, eventsOf turns = es ++ [.closed] ∧ .closed ∉ es

/-- What the turns of a session keep. -/
structure Lived (own : PrivateKey) (pinned : Option PublicKey) (inner : Channel)
    (turns : List Turn) (s : Session) : Prop where
  own_eq : s.own = own
  pinned_eq : s.pinned = pinned
  fits : s.stage.Fits inner turns

theorem eventsOf_snoc (turns : List Turn) (t : Turn) :
    eventsOf (turns ++ [t]) = eventsOf turns ++ t.events := by
  simp [eventsOf]

theorem lastLogin_snoc (turns : List Turn) (t : Turn) :
    lastLogin (turns ++ [t]) = t.loggedIn?.or (lastLogin turns) := by
  rw [lastLogin, List.filterMap_append]
  cases h : t.loggedIn? with
  | none => simp [h, lastLogin]
  | some name => simp [h]

/-- The line is open, unless the session is closed. -/
theorem Stage.Fits.isOpen {stage : Stage} (h : stage.Fits inner turns) (hs : stage ≠ .closed) :
    .closed ∉ eventsOf turns := by
  cases stage with
  | unauthenticated inner' => exact h.2
  | authenticated cipher inner' identity => exact h.2.1
  | closed => exact absurd rfl hs

/-- A turn that does nothing on the line, and logs nobody in, is nothing to the stage. -/
theorem Stage.Fits.snoc {stage : Stage} (h : stage.Fits inner turns) (hes : t.events = [])
    (hl : t.loggedIn? = none) : stage.Fits inner (turns ++ [t]) := by
  have he : eventsOf (turns ++ [t]) = eventsOf turns := by rw [eventsOf_snoc, hes, List.append_nil]
  have hlast : lastLogin (turns ++ [t]) = lastLogin turns := by rw [lastLogin_snoc, hl]; rfl
  cases stage with
  | unauthenticated inner' =>
    rw [Stage.Fits, he]
    exact h
  | authenticated cipher inner' identity =>
    rw [Stage.Fits, he, hlast]
    exact h
  | closed =>
    rw [Stage.Fits, he]
    exact h

/-- Somebody who is logged in is the last who has logged in. -/
theorem Lived.lastLogin_eq {own : PrivateKey} {pinned : Option PublicKey} {name : String}
    (h : Lived own pinned inner turns s) (hn : s.identity = some name) :
    lastLogin turns = some name := by
  have hfits := h.fits
  cases hs : s.stage with
  | authenticated cipher inner' identity' =>
    rw [hs] at hfits
    simp only [identity, hs] at hn
    rw [← hn]
    exact hfits.2.2
  | unauthenticated inner' => simp [identity, hs] at hn
  | closed => simp [identity, hs] at hn

/-! ## Calls -/

/-- Traffic moves the channel on, which keeps its layers. -/
theorem moved_of_renewed (s : Session) (identity : String) {cipher : SessionCipher}
    {inner c : Channel} (h : c.renewed = Channel.renewed (.symmetric cipher :: inner)) :
    ∃ (cipher' : SessionCipher) (inner' : Channel), inner'.renewed = inner.renewed ∧
      s.moved identity c = { s with stage := .authenticated cipher' inner' identity } := by
  obtain ⟨cipher', inner', rfl, -, -, hinner⟩ := Channel.of_renewed_symmetric h
  exact ⟨cipher', inner', hinner, rfl⟩

theorem runs_close_cases (h : s.close.Runs es s') :
    (s.stage = .closed ∧ es = [] ∧ s' = s) ∨ (s.stage ≠ .closed ∧ es = [.closed] ∧ s' = s.shut) := by
  rw [Session.close] at h
  split at h
  next hs =>
    obtain ⟨rfl, rfl⟩ := runs_done_iff.1 h
    exact .inl ⟨hs, rfl, rfl⟩
  next hs =>
    obtain ⟨rest, rfl, h₁⟩ := runs_close_iff.1 h
    obtain ⟨rfl, rfl⟩ := runs_done_iff.1 h₁
    exact .inr ⟨hs, rfl, rfl⟩

variable [CipherSuite]

def Login.run (s : Session) : Login → Dialogue (Outcome String × Session)
  | initiate identity limit => s.initiate identity limit
  | respond store limit => s.respond store (some limit) limit
  | respondIdle store limit => s.respond store none limit

/-- The turns that a session can take, and the session after each. -/
inductive Takes (s : Session) : Turn → Session → Prop where
  | login {l : Login} {es : List Event} {result : Outcome String} {s' : Session}
      (h : (l.run s).Runs es (result, s')) : Takes s (.login l es result) s'
  | logout : Takes s (.logout s.logout.1) s.logout.2
  | send {payload : Bytes} {es : List Event} {result : Outcome Unit} {s' : Session}
      (h : (s.send payload).Runs es (result, s')) : Takes s (.send payload es result) s'
  | receive {limit : Option Duration} {es : List Event} {result : Outcome Bytes} {s' : Session}
      (h : (s.receive limit).Runs es (result, s')) : Takes s (.receive limit es result) s'
  | close {es : List Event} {s' : Session} (h : s.close.Runs es s') : Takes s (.close es) s'

/-! ## Logins -/

/-- The handshake that a login runs. -/
def Login.handshake (keys : SealingKeys) (inner : Channel) :
    Login → Dialogue (Outcome Handshake.Secured)
  | initiate identity limit => Handshake.initiate keys inner identity limit
  | respond store limit => Handshake.respond keys inner store (some limit) limit
  | respondIdle store limit => Handshake.respond keys inner store none limit

theorem Login.run_eq (l : Login) (s : Session) : l.run s = s.login (l.handshake s.keys) := by
  cases l <;> rfl

/-- The name that a login may end with. -/
def Login.Names (name : String) : Login → Prop
  | initiate identity _ => name = identity
  | _ => True

/-- A handshake leaves the layers below, or it closes the line. -/
theorem Login.handshake_cases (l : Login) {keys : SealingKeys} {o : Outcome Handshake.Secured}
    (h : (l.handshake keys inner).Runs es o) :
    (∃ secured, o = .ok secured ∧ .closed ∉ es ∧ secured.Over inner ∧ l.Names secured.identity) ∨
      ∃ e es', o = .error e ∧ es = es' ++ [.closed] ∧ .closed ∉ es' := by
  cases l with
  | initiate identity limit => exact Handshake.initiate_kept h
  | respond store limit =>
    rcases Handshake.respond_kept h with ⟨secured, ho, hes, hover⟩ | hfail
    · exact .inl ⟨secured, ho, hes, hover, trivial⟩
    · exact .inr hfail
  | respondIdle store limit =>
    rcases Handshake.respond_kept h with ⟨secured, ho, hes, hover⟩ | hfail
    · exact .inl ⟨secured, ho, hes, hover, trivial⟩
    · exact .inr hfail

theorem runs_login_of_unauthenticated {l : Login} {result : Outcome String}
    (hs : s.stage = .unauthenticated inner) (h : (l.run s).Runs es (result, s')) :
    (∃ secured, result = .ok secured.identity ∧ .closed ∉ es ∧ secured.Over inner ∧
      l.Names secured.identity ∧ s' = s.enter secured) ∨
    ∃ e es', result = .error e ∧ es = es' ++ [.closed] ∧ .closed ∉ es' ∧ s' = s.shut := by
  rw [l.run_eq] at h
  simp only [Session.login, hs] at h
  obtain ⟨es₁, es₂, o, rfl, h₁, h₂⟩ := runs_bind_iff.1 h
  rcases l.handshake_cases h₁ with ⟨secured, rfl, hes, hover, hname⟩ | ⟨e, es', rfl, rfl, hes⟩
  · obtain ⟨rfl, heq⟩ := runs_done_iff.1 h₂
    cases heq
    rw [List.append_nil]
    exact .inl ⟨secured, rfl, hes, hover, hname, rfl⟩
  · obtain ⟨rfl, heq⟩ := runs_done_iff.1 h₂
    cases heq
    rw [List.append_nil]
    exact .inr ⟨e, es', rfl, rfl, hes, rfl⟩

/-! ## Turns -/

/-- What a turn may be, and the session after it. -/
inductive Goes (s : Session) (t : Turn) : Session → Prop where
  | refused (ht : t.IsRefused s) : Goes s t s
  | loggedIn {inner : Channel} {l : Login} {es : List Event} {secured : Handshake.Secured}
      (hs : s.stage = .unauthenticated inner) (ht : t = .login l es (.ok secured.identity))
      (hes : .closed ∉ es) (hover : secured.Over inner) (hname : l.Names secured.identity) :
      Goes s t (s.enter secured)
  | loggedOut {cipher : SessionCipher} {inner : Channel} {identity : String}
      (hs : s.stage = .authenticated cipher inner identity) (ht : t = .logout (.ok identity)) :
      Goes s t { s with stage := .unauthenticated inner }
  | talked {cipher cipher' : SessionCipher} {inner inner' : Channel} {identity : String}
      (hs : s.stage = .authenticated cipher inner identity) (ht : t.IsTraffic)
      (hes : .closed ∉ t.events) (hover : inner'.renewed = inner.renewed) :
      Goes s t { s with stage := .authenticated cipher' inner' identity }
  | shut {es : List Event} (hs : s.stage ≠ .closed) (ht : t.loggedIn? = none)
      (hes : t.events = es ++ [.closed]) (hopen : .closed ∉ es) : Goes s t s.shut

theorem Takes.refused (h : Takes s t s') (ht : ¬ t.IsAllowed s.stage) :
    t.IsRefused s ∧ s' = s := by
  cases h with
  | login h =>
    rw [Login.run_eq, Session.login] at h
    split at h
    next inner hs => exact absurd ⟨inner, hs⟩ ht
    next =>
      obtain ⟨rfl, heq⟩ := runs_done_iff.1 h
      cases heq
      exact ⟨⟨rfl, rfl⟩, rfl⟩
  | logout =>
    unfold Session.logout
    split
    next cipher inner identity hs => exact absurd ⟨cipher, inner, identity, hs⟩ ht
    next => exact ⟨rfl, rfl⟩
  | send h =>
    rw [Session.send] at h
    split at h
    next cipher inner identity hs => exact absurd ⟨cipher, inner, identity, hs⟩ ht
    next =>
      obtain ⟨rfl, heq⟩ := runs_done_iff.1 h
      cases heq
      exact ⟨⟨rfl, rfl⟩, rfl⟩
  | receive h =>
    rw [Session.receive] at h
    split at h
    next cipher inner identity hs => exact absurd ⟨cipher, inner, identity, hs⟩ ht
    next =>
      obtain ⟨rfl, heq⟩ := runs_done_iff.1 h
      cases heq
      exact ⟨⟨rfl, rfl⟩, rfl⟩
  | close => exact absurd trivial ht

/-- **What a turn does.** -/
theorem Takes.goes (h : Takes s t s') : s.Goes t s' := by
  by_cases ha : t.IsAllowed s.stage
  · cases h with
    | login h =>
      obtain ⟨inner, hs⟩ := ha
      rcases runs_login_of_unauthenticated hs h with ⟨secured, rfl, hes, hover, hname, rfl⟩ |
        ⟨e, es', rfl, hes, hopen, rfl⟩
      · exact .loggedIn hs rfl hes hover hname
      · exact .shut (by simp [hs]) rfl hes hopen
    | logout =>
      obtain ⟨cipher, inner, identity, hs⟩ := ha
      simp only [Session.logout, hs]
      exact .loggedOut hs rfl
    | send h =>
      obtain ⟨cipher, inner, identity, hs⟩ := ha
      simp only [Session.send, hs] at h
      obtain ⟨r, hr, heq⟩ := runs_bind_done_iff.1 h
      obtain ⟨hopen, hc⟩ := (Channel.staysOpen_send _ _).of_runs hr
      obtain ⟨cipher', inner', hinner, hmoved⟩ := s.moved_of_renewed identity hc
      cases heq
      rw [hmoved]
      exact .talked hs trivial hopen hinner
    | receive h =>
      obtain ⟨cipher, inner, identity, hs⟩ := ha
      simp only [Session.receive, hs] at h
      obtain ⟨r, hr, heq⟩ := runs_bind_done_iff.1 h
      obtain ⟨hopen, hc⟩ := (Channel.staysOpen_receive _ _).of_runs hr
      obtain ⟨cipher', inner', hinner, hmoved⟩ := s.moved_of_renewed identity hc
      cases heq
      rw [hmoved]
      exact .talked hs trivial hopen hinner
    | close h =>
      rcases runs_close_cases h with ⟨-, rfl, rfl⟩ | ⟨hs, rfl, rfl⟩
      · exact .refused rfl
      · exact .shut hs rfl (List.nil_append [Event.closed]).symm (by simp)
  · obtain ⟨hr, rfl⟩ := h.refused ha
    exact .refused hr

theorem Takes.of_loggedIn {l : Login} {name : String} (h : Takes s (.login l es (.ok name)) s') :
    l.Names name ∧ s'.identity = some name := by
  cases h.goes with
  | refused hr => cases hr.2
  | loggedIn hs ht hes hover hname =>
    cases ht
    exact ⟨hname, rfl⟩
  | loggedOut hs ht => cases ht
  | talked hs ht => exact ht.elim
  | shut hs ht => cases ht

theorem Takes.of_failed {l : Login} {e : ChatError} (h : Takes s (.login l es (.error e)) s')
    (hs : s.stage = .unauthenticated inner) : s'.stage = .closed := by
  cases h with
  | login hrun =>
    rcases runs_login_of_unauthenticated hs hrun with ⟨_, hr, -⟩ | ⟨e, es', -, -, -, rfl⟩
    · cases hr
    · rfl

theorem Takes.of_close (h : Takes s (.close es) s') : s'.stage = .closed := by
  cases h with
  | close hrun =>
    rcases runs_close_cases hrun with ⟨hs, -, rfl⟩ | ⟨-, -, rfl⟩
    · exact hs
    · rfl

theorem Takes.of_loggedOut {name : String} (h : Takes s (.logout (.ok name)) s') :
    ∃ cipher inner, s.stage = .authenticated cipher inner name ∧
      s' = { s with stage := .unauthenticated inner } := by
  cases h.goes with
  | refused hr => cases hr
  | loggedIn hs ht => cases ht
  | @loggedOut cipher inner identity hs ht =>
    cases ht
    exact ⟨cipher, inner, hs, rfl⟩
  | talked hs ht => exact ht.elim
  | shut hs ht hes => simp [Turn.events] at hes

/-- **Whoever is logged in logs out by asking for it.** -/
theorem Takes.of_logout {name : String} {result : Outcome String} (hn : s.identity = some name)
    (h : Takes s (.logout result) s') : result = .ok name ∧ ∃ cipher inner,
      s.stage = .authenticated cipher inner name ∧ s' = { s with stage := .unauthenticated inner } := by
  cases hs : s.stage with
  | authenticated cipher inner identity' =>
    simp only [identity, hs, Option.some.injEq] at hn
    subst hn
    have hlogout : s.logout = (.ok identity', { s with stage := .unauthenticated inner }) := by
      simp only [Session.logout, hs]
    cases h with
    | logout =>
      rw [hlogout]
      exact ⟨rfl, cipher, inner, rfl, rfl⟩
  | unauthenticated inner => simp [identity, hs] at hn
  | closed => simp [identity, hs] at hn

/-! ## The invariant -/

/-- Every turn keeps the invariant. -/
theorem Lived.turn {own : PrivateKey} {pinned : Option PublicKey} (h : Lived own pinned inner turns s)
    (hstep : Takes s t s') : Lived own pinned inner (turns ++ [t]) s' := by
  have hopen {es : List Event} (hs : s.stage ≠ .closed) (hes : .closed ∉ es) :
      .closed ∉ eventsOf turns ++ es := by
    simp [h.fits.isOpen hs, hes]
  have hfits := h.fits
  cases hstep.goes with
  | refused hr => exact ⟨h.own_eq, h.pinned_eq, h.fits.snoc hr.events_eq hr.loggedIn?_eq⟩
  | loggedIn hs ht hes hover hname =>
    rw [hs] at hfits
    refine ⟨h.own_eq, h.pinned_eq, hover.trans hfits.1, ?_, ?_⟩
    · rw [eventsOf_snoc, ht]
      exact hopen (by simp [hs]) hes
    · rw [lastLogin_snoc, ht]
      rfl
  | loggedOut hs ht =>
    rw [hs] at hfits
    refine ⟨h.own_eq, h.pinned_eq, hfits.1, ?_⟩
    rw [eventsOf_snoc, ht]
    exact hopen (by simp [hs]) (by simp [Turn.events])
  | talked hs ht hes hover =>
    rw [hs] at hfits
    refine ⟨h.own_eq, h.pinned_eq, hover.trans hfits.1, ?_, ?_⟩
    · rw [eventsOf_snoc]
      exact hopen (by simp [hs]) hes
    · rw [lastLogin_snoc, ht.loggedIn?_eq]
      exact hfits.2.2
  | @shut es hs ht hes hes' =>
    refine ⟨h.own_eq, h.pinned_eq, eventsOf turns ++ es, ?_, hopen hs hes'⟩
    rw [eventsOf_snoc, hes, List.append_assoc]

theorem lived {own : PrivateKey} {pinned : Option PublicKey}
    (h : History Takes (.new inner own pinned) turns s) : Lived own pinned inner turns s := by
  have hstart : Lived own pinned inner [] (.new inner own pinned) :=
    ⟨rfl, rfl, rfl, by simp [eventsOf]⟩
  exact h.keeps (fun _ _ _ _ hpast ht => Lived.turn hpast ht) hstart

/-- A closed session stays closed. -/
theorem eq_of_closed (hs : s.stage = .closed) (h : History Takes s turns s') :
    s' = s ∧ ∀ t ∈ turns, t.IsRefused s := by
  have hkeep : ∀ m t m', m = s → Takes m t m' → t.IsRefused s ∧ m' = s := by
    intro m t m' hm ht
    subst hm
    cases ht.goes with
    | refused hr => exact ⟨hr, rfl⟩
    | loggedIn hs' => simp [hs] at hs'
    | loggedOut hs' => simp [hs] at hs'
    | talked hs' => simp [hs] at hs'
    | shut hs' => exact absurd hs hs'
  obtain ⟨hall, heq⟩ := h.forall_turns hkeep rfl
  exact ⟨heq, hall⟩

/-! ## All courses -/

/-- What a login makes of a session. -/
def settled (s : Session) : Outcome Handshake.Secured → Outcome String × Session
  | .ok secured => (.ok secured.identity, s.enter secured)
  | .error e => (.error e, s.shut)

theorem Login.run_of_unauthenticated (l : Login) (hs : s.stage = .unauthenticated inner) :
    l.run s = l.handshake s.keys inner >>= fun o => pure (s.settled o) := by
  rw [l.run_eq]
  simp only [Session.login, hs]
  congr 1
  funext o
  cases o <;> rfl

/-- What holds of every course of a session. -/
structure Lifecycle (own : PrivateKey) (pinned : Option PublicKey) (inner : Channel)
    (turns : List Turn) (s : Session) : Prop where
  keys_eq : s.keys = ⟨own, pinned⟩
  isSome_identity_iff : s.identity.isSome ↔ s.stage.name = "Authenticated"
  /-- Somebody who is logged in is the last who has logged in. -/
  identity_eq : ∀ name, s.identity = some name → lastLogin turns = some name
  loggedIn : ∀ l es name s', Takes s (.login l es (.ok name)) s' →
    l.Names name ∧ s'.identity = some name
  /-- What the stage does not allow fails, and changes nothing. -/
  refused : ∀ t s', ¬ t.IsAllowed s.stage → Takes s t s' → t.IsRefused s ∧ s' = s
  failed : ∀ l es e s', Turn.IsAllowed s.stage (.login l es (.error e)) →
    Takes s (.login l es (.error e)) s' → s'.stage = .closed
  closed : ∀ es s', Takes s (.close es) s' → s'.stage = .closed
  /-- Closing the line is the last that a session does on it. -/
  line_closed : s.stage = .closed → ∃ es, eventsOf turns = es ++ [.closed] ∧ .closed ∉ es
  line_open : s.stage ≠ .closed → .closed ∉ eventsOf turns
  /-- A closed session is never left. -/
  final : s.stage = .closed → ∀ later s', History Takes s later s' →
    s' = s ∧ ∀ t ∈ later, t.IsRefused s
  /-- Whoever is logged in logs out by asking for it, and nobody is logged in then, on the same
  layers as at first. -/
  logout_ok : ∀ name, s.identity = some name → ∀ result s', Takes s (.logout result) s' →
    result = .ok name ∧
    ∃ inner', inner'.renewed = inner.renewed ∧ s'.stage = .unauthenticated inner'
  /-- After a logout, a login starts on the same line and from the same keys as at first. -/
  loggedOut : ∀ name s', Takes s (.logout (.ok name)) s' → ∃ cipher inner',
    s.stage = .authenticated cipher inner' name ∧ inner'.renewed = inner.renewed ∧
    s'.stage = .unauthenticated inner' ∧
    ∀ l : Login, l.run s' = l.handshake ⟨own, pinned⟩ inner' >>= fun o => pure (s'.settled o)

/-- **The life of a session**, in every course of calls and with every outcome of its handshakes. It
names exactly who has logged in last while he is logged in, what its stage does not allow changes
nothing, and a failed handshake or a close shuts it and its line for good. Keys and layers stay, so
that after every logout it starts afresh. -/
theorem lifecycle {own : PrivateKey} {pinned : Option PublicKey}
    (h : History Takes (.new inner own pinned) turns s) : Lifecycle own pinned inner turns s := by
  have hlived := lived h
  have hkeys : s.keys = ⟨own, pinned⟩ := by rw [keys, hlived.own_eq, hlived.pinned_eq]
  have hfits := hlived.fits
  refine
    { keys_eq := hkeys
      isSome_identity_iff := ?_
      identity_eq := fun name => hlived.lastLogin_eq
      loggedIn := fun l es name s' hstep => hstep.of_loggedIn
      refused := fun t s' ht hstep => hstep.refused ht
      failed := ?_
      closed := fun es s' hstep => hstep.of_close
      line_closed := ?_
      line_open := hfits.isOpen
      final := fun hs later s' hlater => eq_of_closed hs hlater
      logout_ok := ?_
      loggedOut := ?_ }
  · cases hs : s.stage <;> simp [identity, hs, Stage.name]
  · intro l es e s' ha hstep
    obtain ⟨inner', hs⟩ := ha
    exact hstep.of_failed hs
  · intro hs
    rwa [hs] at hfits
  · intro name hn result s' hstep
    obtain ⟨rfl, cipher, inner', hs, rfl⟩ := hstep.of_logout hn
    rw [hs] at hfits
    exact ⟨rfl, inner', hfits.1, rfl⟩
  · intro name s' hstep
    obtain ⟨cipher, inner', hs, rfl⟩ := hstep.of_loggedOut
    rw [hs] at hfits
    refine ⟨cipher, inner', hs, hfits.1, rfl, fun l => ?_⟩
    rw [← hkeys]
    exact l.run_of_unauthenticated rfl

/-- Somebody logs in, out, and away, with calls between that come out of turn. -/
def clientTurns (name : String) (es : List Event) : List Turn :=
  [.logout (.error .notLoggedIn), .login (.initiate name (.ofSeconds 5)) es (.ok name),
    .login (.initiate name (.ofSeconds 5)) [] (.error .wrongStage), .logout (.ok name),
    .send [104, 105] [] (.error .notLoggedIn), .close [.closed]]

omit [CipherSuite] in
theorem lifecycle_of_client :
    ∃ (suite : CipherSuite) (own : PrivateKey) (pinned : PublicKey) (es : List Event) (s : Session),
      suite.Lawful ∧ s.stage = .closed ∧
      History Takes (.new [.base64] own (some pinned)) (clientTurns "alice" es) s ∧
      Lifecycle own (some pinned) [.base64] (clientTurns "alice" es) s := by
  let client : PrivateKey := ⟨.zero 32⟩
  let server : PrivateKey := ⟨.ofPrefix 32 [1]⟩
  let suite := CipherSuite.between client.block server.block
  let store := KeyRing.toStore ⟨[("alice", client.publicKey)]⟩
  have hlawful : suite.Lawful := CipherSuite.lawful_between client.block server.block
  have hv : Principal.IsValid "alice" := by decide
  have hstore : store.find "alice" = .ok client.publicKey := rfl
  have hconverse : Converse 1024 1024 _
      (Handshake.initiate ⟨client, some server.publicKey⟩ [.base64] "alice" (.ofSeconds 5))
      (Handshake.respond ⟨server, none⟩ [.base64] store none (.ofSeconds 5)) [] [] :=
    Handshake.converse_initiate_respond hlawful (Nat.le_refl 1024) (Nat.le_refl 1024) hv hstore none
      (.ofSeconds 5) (.ofSeconds 5) none
  obtain ⟨es, -, o, -, h, -, secured, -, rfl, -, secrets, rfl, -⟩ := hconverse.exists_runs
  let start : Session := .new [.base64] client (some server.publicKey)
  have hlogin : ((Login.initiate "alice" (.ofSeconds 5)).run start).Runs es
      (.ok "alice", start.enter ⟨⟨secrets, .initiator, 1, 0⟩, [.base64], "alice"⟩) := by
    rw [Login.run_of_unauthenticated _ rfl]
    exact runs_bind_done_iff.2 ⟨_, h, rfl⟩
  have hcourse : History Takes start (clientTurns "alice" es) start.shut :=
    .cons .logout (.cons (.login hlogin) (.cons (.login (.done _)) (.cons .logout
      (.cons (.send (.done _)) (.cons (.close (.close (.done _))) (.nil _))))))
  exact ⟨suite, client, server.publicKey, es, _, hlawful, rfl, hcourse, lifecycle hcourse⟩

end SealedChat.Session
