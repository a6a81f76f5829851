import Mathlib.Algebra.GroupWithZero.Nat
import Mathlib.Data.List.Basic
import Mathlib.Data.List.Nodup
import Mathlib.Logic.Function.Basic
import SealedChat.Proofs.History
import SealedChat.Proofs.SessionTable
import SealedChat.Proofs.Text.Utf8

/-!
# The table keeps a map of owners

Any number of connections call the table, one call at a time, in any order. What the calls have
answered is a `History` of its turns.

**The map** (`Owners`). Who owns an identity, if anybody does. The calls of the table have a meaning
for it that says nothing of lists or counters (`Owners.Takes`): a free identity is bound to the
caller, and one that is taken to nobody, not even to its owner again; an identity is released by its
owner only; a call that is refused changes nothing; and every question is answered from the map.

**The counters** (`Balanced`). Every bind that succeeded is online still, or was released, or was
cleared away, and every call to bind has succeeded or was refused. The counters are 64-bit numbers,
so they count modulo 2⁶⁴; they are exact as long as there are fewer calls to bind than that.

Main result: `SessionTable.answers_as_owners`. Each turn of the table is one of the map
(`Takes.owners`), and each turn keeps the counters (`Counted.turn`).
-/

namespace SealedChat

namespace SessionTable

/-! ## Turns -/

/-- A call of the table, and what it has answered. What clearing answers is what it tells the log:
how many entries there were. -/
inductive Turn where
  | bind (identity : String) (connection : ConnectionId) (result : Outcome Unit)
  | unbind (identity : String) (connection : ConnectionId) (released : Bool)
  | clear (count : Nat)
  | connectionOf (identity : String) (owner : Option ConnectionId)
  | isOnline (identity : String) (answer : Bool)
  | online (names : List String)
  | size (count : Nat)
  | isEmpty (answer : Bool)
  | stats (answer : Stats)

namespace Turn

def isBind : Turn → Bool
  | bind _ _ _ => true
  | _ => false

/-- An identity was bound. -/
def binds : Turn → Bool
  | bind _ _ result => result.isOk
  | _ => false

/-- An identity was released by its owner. -/
def releases : Turn → Bool
  | unbind _ _ released => released
  | _ => false

/-- How many entries were cleared away. -/
def cleared : Turn → Nat
  | clear count => count
  | _ => 0

end Turn

/-- The turns that a table can take, and the table after each. -/
inductive Takes (t : SessionTable) : Turn → SessionTable → Prop where
  | bind (identity : String) (connection : ConnectionId) :
      Takes t (.bind identity connection (t.bind identity connection).1) (t.bind identity connection).2
  | unbind (identity : String) (connection : ConnectionId) :
      Takes t (.unbind identity connection (t.unbind identity connection).1)
        (t.unbind identity connection).2
  | clear : Takes t (.clear t.size) t.clear
  | connectionOf (identity : String) : Takes t (.connectionOf identity (t.connectionOf identity)) t
  | isOnline (identity : String) : Takes t (.isOnline identity (t.isOnline identity)) t
  | online : Takes t (.online t.online) t
  | size : Takes t (.size t.size) t
  | isEmpty : Takes t (.isEmpty t.isEmpty) t
  | stats : Takes t (.stats t.stats) t

end SessionTable

/-! ## The map -/

/-- Who owns an identity, if anybody does. -/
abbrev Owners := String → Option ConnectionId

namespace Owners

open SessionTable (Turn)

def nobody : Owners := fun _ => none

/-- These are the identities that somebody owns, each once. -/
def Lists (m : Owners) (names : List String) : Prop :=
  names.Nodup ∧ ∀ identity, identity ∈ names ↔ (m identity).isSome

/-- What a call means for the map. -/
inductive Takes (m : Owners) : Turn → Owners → Prop where
  | bind {identity : String} (h : m identity = none) (connection : ConnectionId) :
      Takes m (.bind identity connection (.ok ())) (Function.update m identity (some connection))
  | refuse {identity : String} (h : m identity ≠ none) (connection : ConnectionId) :
      Takes m (.bind identity connection (.error .alreadyLoggedIn)) m
  | release {identity : String} {connection : ConnectionId} (h : m identity = some connection) :
      Takes m (.unbind identity connection true) (Function.update m identity none)
  | keep {identity : String} {connection : ConnectionId} (h : m identity ≠ some connection) :
      Takes m (.unbind identity connection false) m
  | clear {names : List String} (h : m.Lists names) : Takes m (.clear names.length) nobody
  | connectionOf (identity : String) : Takes m (.connectionOf identity (m identity)) m
  | isOnline (identity : String) : Takes m (.isOnline identity (m identity).isSome) m
  | online {names : List String} (h : m.Lists names)
      (hs : names.Pairwise fun a b => Utf8.encode a < Utf8.encode b) : Takes m (.online names) m
  | size {names : List String} (h : m.Lists names) : Takes m (.size names.length) m
  | isEmpty {names : List String} (h : m.Lists names) : Takes m (.isEmpty names.isEmpty) m
  | stats {names : List String} (h : m.Lists names) (total rejected : UInt64) :
      Takes m (.stats ⟨names.length, total, rejected⟩) m

end Owners

namespace SessionTable

variable {t t' : SessionTable} {u : Turn} {turns : List Turn} {identity : String}

/-! ## Who is online -/

theorem keyed_empty : empty.Keyed := List.nodup_nil

theorem perm_online (t : SessionTable) : t.online.Perm (t.owners.map Prod.fst) :=
  List.mergeSort_perm _ _

theorem length_online (t : SessionTable) : t.online.length = t.size := by
  rw [t.perm_online.length_eq, List.length_map, size]

theorem Keyed.lists_online (h : t.Keyed) : Owners.Lists t.connectionOf t.online := by
  refine ⟨t.perm_online.nodup_iff.2 h, ?_⟩
  intro identity
  rw [t.perm_online.mem_iff, connectionOf, Entries.isSome_lookup_iff]

/-- **The listing is in the strict order of the bytes**, since no identity is listed twice. -/
theorem Keyed.pairwise_online (h : t.Keyed) :
    t.online.Pairwise fun a b => Utf8.encode a < Utf8.encode b := by
  have hle : t.online.Pairwise fun a b => Utf8.encode a ≤ Utf8.encode b := by
    have htrans : ∀ a b c : String, decide (Utf8.encode a ≤ Utf8.encode b) →
        decide (Utf8.encode b ≤ Utf8.encode c) → decide (Utf8.encode a ≤ Utf8.encode c) := by
      intro a b c hab hbc
      simp only [decide_eq_true_eq] at hab hbc ⊢
      exact List.le_trans hab hbc
    have htotal : ∀ a b : String,
        decide (Utf8.encode a ≤ Utf8.encode b) || decide (Utf8.encode b ≤ Utf8.encode a) := by
      intro a b
      simpa using List.le_total (Utf8.encode a) (Utf8.encode b)
    have hsorted := List.pairwise_mergeSort htrans htotal (t.owners.map Prod.fst)
    exact hsorted.imp fun hab => by simpa using hab
  refine (hle.and h.lists_online.1).imp ?_
  intro a b hab
  have hne : Utf8.encode a ≠ Utf8.encode b := fun heq => hab.2 (Utf8.encode_injective heq)
  exact Std.lt_of_le_of_ne hab.1 hne

/-! ## One turn -/

theorem connectionOf_bind_eq {connection : ConnectionId} (h : t.connectionOf identity = none) :
    (t.bind identity connection).2.connectionOf =
      Function.update t.connectionOf identity (some connection) := by
  funext other
  rw [connectionOf_bind h, Function.update_apply]

theorem connectionOf_unbind_eq {connection : ConnectionId}
    (h : t.connectionOf identity = some connection) :
    (t.unbind identity connection).2.connectionOf = Function.update t.connectionOf identity none := by
  funext other
  rw [connectionOf_unbind, Function.update_apply]
  simp [h]

theorem Takes.keyed (h : Takes t u t') (hk : t.Keyed) : t'.Keyed := by
  cases h with
  | bind identity connection => exact hk.bind identity connection
  | unbind identity connection => exact hk.unbind identity connection
  | clear => exact List.nodup_nil
  | _ => exact hk

/-- **A turn of the table is one of the map.** -/
theorem Takes.owners (h : Takes t u t') (hk : t.Keyed) :
    Owners.Takes t.connectionOf u t'.connectionOf := by
  have hlists := hk.lists_online
  cases h with
  | bind identity connection =>
    cases hc : t.connectionOf identity with
    | none =>
      rw [connectionOf_bind_eq hc, bind_of_free hc]
      exact .bind hc connection
    | some owner =>
      rw [bind_of_taken hc]
      exact .refuse (by simp [hc]) connection
  | unbind identity connection =>
    by_cases hc : t.connectionOf identity = some connection
    · rw [connectionOf_unbind_eq hc, unbind_of_owner hc]
      exact .release hc
    · rw [unbind_of_not_owner hc]
      exact .keep hc
  | clear =>
    rw [← length_online]
    exact .clear hlists
  | connectionOf identity => exact .connectionOf identity
  | isOnline identity => exact .isOnline identity
  | online => exact .online hlists hk.pairwise_online
  | size =>
    rw [← length_online]
    exact .size hlists
  | isEmpty =>
    have heq : t.isEmpty = t.online.isEmpty := by
      rw [SessionTable.isEmpty, ← length_online]
      cases t.online <;> rfl
    rw [heq]
    exact .isEmpty hlists
  | stats =>
    rw [SessionTable.stats, ← length_online]
    exact .stats hlists _ _

/-! ## Counters -/

/-- What the turns so far say of a table: how many binds it has counted, and how many of them are
left. -/
structure Counted (turns : List Turn) (t : SessionTable) : Prop where
  total : t.totalBinds = .ofNat (turns.countP Turn.binds)
  asked : t.totalBinds + t.rejectedBinds = .ofNat (turns.countP Turn.isBind)
  left : t.size + turns.countP Turn.releases + (turns.map Turn.cleared).sum =
    turns.countP Turn.binds

/-- What a turn has to do to the counters. -/
theorem Counted.snoc (h : Counted turns t)
    (htotal : t'.totalBinds = t.totalBinds + .ofNat u.binds.toNat)
    (hasked : t'.totalBinds + t'.rejectedBinds =
      t.totalBinds + t.rejectedBinds + .ofNat u.isBind.toNat)
    (hleft : t'.size + u.releases.toNat + u.cleared = t.size + u.binds.toNat) :
    Counted (turns ++ [u]) t' := by
  have hcount : ∀ p : Turn → Bool, (turns ++ [u]).countP p = turns.countP p + (p u).toNat := by
    intro p
    cases hp : p u <;> simp [hp]
  refine ⟨?_, ?_, ?_⟩
  · rw [htotal, h.total, hcount, UInt64.ofNat_add]
  · rw [hasked, h.asked, hcount, UInt64.ofNat_add]
  · have hold := h.left
    simp only [hcount, List.map_append, List.sum_append, List.map_cons, List.map_nil,
      List.sum_cons, List.sum_nil]
    omega

/-- Every turn keeps the counters. -/
theorem Counted.turn (h : Counted turns t) (hk : t.Keyed) (ht : Takes t u t') :
    Counted (turns ++ [u]) t' := by
  cases ht with
  | bind identity connection =>
    cases hc : t.connectionOf identity with
    | none =>
      have hcomm : t.totalBinds + 1 + t.rejectedBinds = t.totalBinds + t.rejectedBinds + 1 := by
        ac_rfl
      rw [bind_of_free hc]
      exact h.snoc rfl hcomm rfl
    | some owner =>
      rw [bind_of_taken hc]
      exact h.snoc (UInt64.add_zero _).symm (UInt64.add_assoc ..).symm rfl
  | unbind identity connection =>
    by_cases hc : t.connectionOf identity = some connection
    · obtain ⟨t', hunbind, hsize, ht, hr⟩ := hk.exists_unbind hc
      rw [hunbind]
      exact h.snoc (by simp [ht, Turn.binds]) (by simp [ht, hr, Turn.isBind]) hsize
    · rw [unbind_of_not_owner hc]
      exact h.snoc (by simp [Turn.binds]) (by simp [Turn.isBind]) rfl
  | clear =>
    refine h.snoc (by simp [clear, Turn.binds]) (by simp [clear, Turn.isBind]) ?_
    simp [clear, SessionTable.size, Turn.binds, Turn.releases, Turn.cleared]
  | _ => exact h.snoc (by simp [Turn.binds]) (by simp [Turn.isBind]) rfl

theorem counted_empty : Counted [] empty := ⟨rfl, rfl, rfl⟩

/-- What the statistics of a table say, after these turns. -/
structure Balanced (turns : List Turn) (s : Stats) : Prop where
  /-- An identity that was bound is online still, or was released, or was cleared away. -/
  bound : s.totalBinds =
    .ofNat (s.online + turns.countP Turn.releases + (turns.map Turn.cleared).sum)
  /-- A call to bind has succeeded or was refused. -/
  asked : s.totalBinds + s.rejectedBinds = .ofNat (turns.countP Turn.isBind)
  /-- The counters are exact until they have come around. -/
  exact : turns.countP Turn.isBind < 2 ^ 64 →
    s.totalBinds.toNat =
        s.online + turns.countP Turn.releases + (turns.map Turn.cleared).sum ∧
      s.totalBinds.toNat + s.rejectedBinds.toNat = turns.countP Turn.isBind

theorem Counted.balanced (h : Counted turns t) : Balanced turns t.stats := by
  obtain ⟨htotal, hasked, hleft⟩ := h
  refine ⟨?_, hasked, ?_⟩
  · rw [stats, hleft]
    exact htotal
  · intro hlt
    have hle : turns.countP Turn.binds ≤ turns.countP Turn.isBind := by
      refine List.countP_mono_left fun u _ hu => ?_
      cases u <;> first | rfl | cases hu
    have hexact : t.totalBinds.toNat = turns.countP Turn.binds := by
      rw [htotal, UInt64.toNat_ofNat_of_lt' (Nat.lt_of_le_of_lt hle hlt)]
    have hsum := congrArg UInt64.toNat hasked
    rw [UInt64.toNat_add, UInt64.toNat_ofNat_of_lt' hlt] at hsum
    have hword := t.rejectedBinds.toNat_lt
    simp only [stats]
    omega

/-! ## All turns -/

/-- **The table keeps a map of owners.** Whatever is called, by any number of connections, each call
answers as the map does that starts with nobody and is changed by the calls before; the map is what
the table holds in the end. The identities that are online are listed in the strict order of their
bytes, and whenever the statistics are asked for, they balance. -/
theorem answers_as_owners (h : History Takes empty turns t) :
    History Owners.Takes .nobody turns t.connectionOf ∧
      Owners.Lists t.connectionOf t.online ∧
      (t.online.Pairwise fun a b => Utf8.encode a < Utf8.encode b) ∧
      t.stats.online = t.online.length ∧ Balanced turns t.stats ∧
      ∀ before s after, turns = before ++ .stats s :: after → Balanced before s := by
  have hcounted : ∀ {before : List Turn} {m : SessionTable}, History Takes empty before m →
      Counted before m ∧ m.Keyed := by
    intro before m hbefore
    have hstep : ∀ past m u m', (Counted past m ∧ m.Keyed) → Takes m u m' →
        (Counted (past ++ [u]) m' ∧ m'.Keyed) :=
      fun _ _ _ _ hpast hu => ⟨hpast.1.turn hpast.2 hu, hu.keyed hpast.2⟩
    exact hbefore.keeps hstep ⟨counted_empty, keyed_empty⟩
  obtain ⟨howners, hk⟩ := h.simulates (f := connectionOf) (Q := Owners.Takes)
    (fun _ _ _ hm hu => ⟨hu.owners hm, hu.keyed hm⟩) keyed_empty
  refine ⟨howners, hk.lists_online, hk.pairwise_online, (length_online t).symm,
    (hcounted h).1.balanced, ?_⟩
  intro before s after hturns
  obtain ⟨m, m', hbefore, hstats, -⟩ := History.turn_iff.1 (hturns ▸ h)
  cases hstats
  exact (hcounted hbefore).1.balanced

/-- Two connections want to be alice. The first has her, asks for her again, and lets her go; the
second then has her, until the table is cleared. -/
def twoForAlice : List Turn :=
  [.bind "alice" 1 (.ok ()), .bind "alice" 1 (.error .alreadyLoggedIn),
    .bind "alice" 2 (.error .alreadyLoggedIn), .unbind "alice" 2 false, .unbind "alice" 1 true,
    .unbind "alice" 1 false, .bind "alice" 2 (.ok ()), .connectionOf "alice" (some 2),
    .stats ⟨1, 2, 2⟩, .clear 1, .isOnline "alice" false]

theorem history_twoForAlice : History Takes empty twoForAlice ⟨[], 2, 2⟩ :=
  .cons (.bind "alice" 1) (.cons (.bind "alice" 1) (.cons (.bind "alice" 2)
    (.cons (.unbind "alice" 2) (.cons (.unbind "alice" 1) (.cons (.unbind "alice" 1)
      (.cons (.bind "alice" 2) (.cons (.connectionOf "alice") (.cons .stats (.cons .clear
        (.cons (.isOnline "alice") (.nil _)))))))))))

theorem answers_as_owners_of_two :
    History Takes empty twoForAlice ⟨[], 2, 2⟩ ∧
      History Owners.Takes .nobody twoForAlice (connectionOf ⟨[], 2, 2⟩) ∧
      Balanced (twoForAlice.take 8) ⟨1, 2, 2⟩ := by
  obtain ⟨howners, -, -, -, -, hstats⟩ := answers_as_owners history_twoForAlice
  exact ⟨history_twoForAlice, howners, hstats _ _ [.clear 1, .isOnline "alice" false] rfl⟩

end SessionTable

end SealedChat
