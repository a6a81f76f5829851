import SealedChat.Proofs.Server.Turn

/-!
# A connection that owns what it serves

The invariant of one connection (`Sound`):

* a connection that serves an identity owns it, and a connection that owns an identity serves it or
  is about to release what it owns;
* what a connection owns, or is about to bind, is what its session is logged in as.

A turn keeps the invariant of the connection that makes it (`Sound.turn`). It cannot harm the others,
because it changes no entry but a free one and those that the connection owns itself (`Turn.frame`).
A connection that has been turned away owns nothing, and leaves the table alone until it ends
(`Turn.last`).
-/

namespace SealedChat.Connection

/-! ## The invariant -/

/-- The connection owns no identity. -/
def Free (t : SessionTable) (c : Connection) : Prop := ∀ x, t.connectionOf x ≠ some c.id

/-- Phases in which a connection owns nothing. -/
def Phase.IsIdle : Phase → Prop
  | .handshake _ | .binding _ | .refusing _ | .loggingOut | .closing _ | .ended => True
  | .serving _ | .dispatching _ _ | .replying _ _ _ | .unbinding _ | .releasing _ => False

theorem Phase.IsIdle.served?_eq {p : Phase} (h : p.IsIdle) : p.served? = none := by
  cases p <;> first | rfl | exact h.elim

/-- The connection owns what it serves, as whoever is logged in. -/
structure Sound (t : SessionTable) (c : Connection) : Prop where
  /-- Only who is logged in gets bound. -/
  named : ∀ {x}, c.phase = .binding x → c.session.identity = some x
  serves : ∀ {x}, c.phase.served? = some x → t.connectionOf x = some c.id
  authenticated : ∀ {x}, t.connectionOf x = some c.id → c.session.identity = some x
  /-- An owner serves, or is about to release what it owns. -/
  holds : ∀ {x}, t.connectionOf x = some c.id →
    c.phase.served? = some x ∨ ∃ cause, c.phase = .releasing cause

variable {c c' d : Connection} {t t' : SessionTable} {x : String}

theorem Sound.of_free (hf : Free t c) (hi : c.phase.IsIdle)
    (hn : ∀ x, c.phase = .binding x → c.session.identity = some x) : Sound t c where
  named h := hn _ h
  serves h := by
    rw [hi.served?_eq] at h
    cases h
  authenticated h := absurd h (hf _)
  holds h := absurd h (hf _)

theorem Sound.free (h : Sound t c) (hi : c.phase.IsIdle) : Free t c := by
  intro x hx
  rcases h.holds hx with hs | ⟨cause, hc⟩
  · rw [hi.served?_eq] at hs
    cases hs
  · rw [hc] at hi
    exact hi

/-- What a connection owns is one identity at most. -/
theorem Sound.eq_of_owned {y : String} (h : Sound t c) (hx : t.connectionOf x = some c.id)
    (hy : t.connectionOf y = some c.id) : x = y := by
  have hsession := h.authenticated hx
  rw [h.authenticated hy] at hsession
  exact (Option.some.inj hsession).symm

theorem Sound.ne_ended (h : Sound t c) (hx : t.connectionOf x = some c.id) : c.phase ≠ .ended := by
  intro hp
  exact h.free (by rw [hp]; trivial) x hx

/-- Soundness depends only on what the connection owns. -/
theorem Sound.congr (h : Sound t c)
    (ht : ∀ x, t'.connectionOf x = some c.id ↔ t.connectionOf x = some c.id) : Sound t' c where
  named := h.named
  serves hx := (ht _).2 (h.serves hx)
  authenticated hx := h.authenticated ((ht _).1 hx)
  holds hx := h.holds ((ht _).1 hx)

/-- A connection that releases its only identity owns nothing afterwards. -/
theorem free_unbind {identity : String} (h : ∀ x, t.connectionOf x = some c.id → x = identity) :
    Free (t.unbind identity c.id).2 c := by
  intro x hx
  rw [SessionTable.connectionOf_unbind] at hx
  split_ifs at hx with hi
  have hxi := h x hx
  subst hxi
  exact hi ⟨rfl, hx⟩

/-! ## Turns -/

theorem Turn.id_eq (h : Turn c t t' c') : c'.id = c.id := by
  cases h <;> rfl

theorem Turn.keyed (h : Turn c t t' c') (hk : t.Keyed) : t'.Keyed := by
  cases h with
  | bound => exact hk.bind _ _
  | refused => exact hk.bind _ _
  | unbound => exact hk.unbind _ _
  | released =>
    cases c.session.identity with
    | none => exact hk
    | some identity => exact hk.unbind _ _
  | loggedIn | served | loggedOut | failed | closed | idle => exact hk

theorem frame_unbind (identity : String) :
    (t.unbind identity c.id).2.connectionOf x = t.connectionOf x ∨
      t.connectionOf x = some c.id ∧ (t.unbind identity c.id).2.connectionOf x = none := by
  rw [SessionTable.connectionOf_unbind]
  split_ifs with h
  · obtain ⟨rfl, hc⟩ := h
    exact .inr ⟨hc, rfl⟩
  · exact .inl rfl

/-- **A turn takes a free entry or gives up one of its own**, and leaves all others as they are. -/
theorem Turn.frame (h : Turn c t t' c') (x : String) :
    t'.connectionOf x = t.connectionOf x ∨
      (t.connectionOf x = none ∧ t'.connectionOf x = some c.id) ∨
      (t.connectionOf x = some c.id ∧ t'.connectionOf x = none) := by
  cases h with
  | bound hp hfree =>
    rw [SessionTable.connectionOf_bind hfree]
    split_ifs with hx
    · subst hx
      exact .inr (.inl ⟨hfree, rfl⟩)
    · exact .inl rfl
  | refused hp htaken =>
    rw [SessionTable.bind_of_taken htaken]
    exact .inl rfl
  | unbound hp => exact (frame_unbind _).imp_right .inr
  | released hp =>
    cases c.session.identity with
    | none => exact .inl rfl
    | some identity => exact (frame_unbind _).imp_right .inr
  | loggedIn | served | loggedOut | failed | closed | idle => exact .inl rfl

theorem Turn.owned_iff (h : Turn c t t' c') {id : ConnectionId} (hne : id ≠ c.id) (x : String) :
    t'.connectionOf x = some id ↔ t.connectionOf x = some id := by
  rcases h.frame x with heq | ⟨hnone, hsome⟩ | ⟨hsome, hnone⟩
  · rw [heq]
  · simp [hnone, hsome, hne.symm]
  · simp [hnone, hsome, hne.symm]

/-- **A turn keeps the invariant of the connection that makes it.** -/
theorem Sound.turn (hs : Sound t c) (h : Turn c t t' c') : Sound t' c' := by
  cases h with
  | loggedIn hp hsession =>
    refine .of_free (hs.free (by rw [hp]; trivial)) trivial ?_
    rintro x ⟨⟩
    exact hsession
  | @bound identity hp hfree =>
    -- The new entry is the only one: whoever binds owns nothing yet.
    have hown : ∀ x, (t.bind identity c.id).2.connectionOf x = some c.id → x = identity := by
      intro x hx
      rw [SessionTable.connectionOf_bind hfree] at hx
      split_ifs at hx with hxi
      · exact hxi
      · exact absurd hx (hs.free (by rw [hp]; trivial) x)
    refine ⟨nofun, ?_, ?_, ?_⟩
    · rintro x ⟨⟩
      rw [SessionTable.connectionOf_bind hfree, if_pos rfl]
    · intro x hx
      rw [hown x hx]
      exact hs.named hp
    · intro x hx
      rw [hown x hx]
      exact .inl rfl
  | refused hp htaken =>
    have hfree := hs.free (by rw [hp]; trivial)
    rw [SessionTable.bind_of_taken htaken]
    exact .of_free hfree trivial nofun
  | @served session phase identity hp hp' hsession =>
    have hown := hs.serves hp
    refine ⟨?_, ?_, ?_, ?_⟩
    · rintro x ⟨⟩
      cases hp'
    · intro x hx
      rw [hp'] at hx
      cases hx
      exact hown
    · intro x hx
      rw [hsession]
      exact hs.authenticated hx
    · intro x hx
      rw [hs.eq_of_owned hx hown]
      exact .inl hp'
  | @unbound identity hp =>
    have hown : ∀ x, t.connectionOf x = some c.id → x = identity := fun x hx =>
      hs.eq_of_owned hx (hs.serves (by rw [hp]; rfl))
    exact .of_free (free_unbind hown) trivial nofun
  | loggedOut hp =>
    exact .of_free (hs.free (by rw [hp]; trivial)) trivial nofun
  | @failed session cause hsession =>
    refine ⟨nofun, nofun, fun hx => ?_, fun _ => .inr ⟨cause, rfl⟩⟩
    rcases hsession with hsession | ⟨again, hp⟩
    · rw [hsession]
      exact hs.authenticated hx
    · exact absurd hx (hs.free (by rw [hp]; trivial) _)
  | released hp =>
    -- What is released is what the session is logged in as, and that is all there can be to own.
    refine .of_free ?_ trivial nofun
    cases hi : c.session.identity with
    | none =>
      intro x hx
      have hx' := hs.authenticated hx
      rw [hi] at hx'
      cases hx'
    | some identity =>
      refine free_unbind fun x hx => ?_
      have hx' := hs.authenticated hx
      rw [hi] at hx'
      exact (Option.some.inj hx').symm
  | closed hp =>
    exact .of_free (hs.free (by rw [hp]; trivial)) trivial nofun
  | idle hp => exact hs

/-! ## After a refusal -/

/-- The connection has been turned away or has failed: it is about to end. -/
def Phase.IsLast : Phase → Prop
  | .refusing _ | .releasing _ | .closing _ | .ended => True
  | _ => False

/-- A connection that owns nothing and is about to end leaves the table alone. -/
theorem Turn.last (h : Turn c t t' c') (hl : c.phase.IsLast) (hf : Free t c) :
    t' = t ∧ c'.phase.IsLast := by
  cases h with
  | loggedIn hp | bound hp | refused hp | unbound hp | loggedOut hp =>
    rw [hp] at hl
    exact hl.elim
  | served hp =>
    unfold Phase.served? at hp
    split at hp <;> simp_all [Phase.IsLast]
  | failed | closed => exact ⟨rfl, trivial⟩
  | released =>
    refine ⟨?_, trivial⟩
    cases c.session.identity with
    | none => rfl
    | some identity => exact congrArg Prod.snd (SessionTable.unbind_of_not_owner (hf identity))
  | idle => exact ⟨rfl, hl⟩

theorem Turn.of_taken {identity : String} {owner : ConnectionId} (h : Turn c t t' c')
    (hp : c.phase = .binding identity) (ht : t.connectionOf identity = some owner) :
    t'.owners = t.owners ∧ c'.phase = .refusing .alreadyLoggedIn := by
  cases h with
  | bound hp' hfree =>
    rw [hp] at hp'
    cases hp'
    rw [ht] at hfree
    cases hfree
  | refused hp' htaken =>
    rw [SessionTable.bind_of_taken htaken]
    exact ⟨rfl, rfl⟩
  | served hp' =>
    rw [hp] at hp'
    cases hp'
  | failed _ hb => exact absurd hp (hb _)
  | loggedIn hp' | unbound hp' | loggedOut hp' | released hp' | closed hp' | idle hp' =>
    rw [hp] at hp'
    cases hp'

end SealedChat.Connection
