import Mathlib.Data.List.Basic
import Mathlib.Data.List.Nodup
import SealedChat.Proofs.Entries
import SealedChat.Service.SessionTable

/-!
# The table as a map

What `connectionOf` says after each operation, for every identity at once. Binding a free identity
and releasing an owned one change that identity and no other; in all other cases nothing changes.
No identity is listed twice.
-/

namespace SealedChat.SessionTable

variable {t : SessionTable} {identity : String} {connection : ConnectionId}

/-! ## Operations -/

theorem bind_of_free (h : t.connectionOf identity = none) :
    t.bind identity connection = (.ok (), { t with
      owners := (identity, connection) :: t.owners
      totalBinds := t.totalBinds + 1 }) := by
  simp [bind, isOnline, h]

theorem bind_of_taken {owner : ConnectionId} (h : t.connectionOf identity = some owner) :
    t.bind identity connection =
      (.error .alreadyLoggedIn, { t with rejectedBinds := t.rejectedBinds + 1 }) := by
  simp [bind, isOnline, h]

theorem unbind_of_owner (h : t.connectionOf identity = some connection) :
    t.unbind identity connection =
      (true, { t with owners := t.owners.filter (·.1 ≠ identity) }) := by
  simp [unbind, h]

theorem unbind_of_not_owner (h : t.connectionOf identity ≠ some connection) :
    t.unbind identity connection = (false, t) := by
  simp [unbind, h]

/-! ## Owners afterwards -/

theorem connectionOf_bind (h : t.connectionOf identity = none) (other : String) :
    (t.bind identity connection).2.connectionOf other =
      if other = identity then some connection else t.connectionOf other := by
  rw [bind_of_free h]
  exact Entries.lookup_cons

theorem connectionOf_unbind (other : String) :
    (t.unbind identity connection).2.connectionOf other =
      if other = identity ∧ t.connectionOf identity = some connection then none
      else t.connectionOf other := by
  by_cases h : t.connectionOf identity = some connection
  · rw [unbind_of_owner h]
    simp only [connectionOf, Entries.lookup_filter_ne] at h ⊢
    simp [h]
  · simp [unbind_of_not_owner h, h]

/-- No identity is listed twice. -/
def Keyed (t : SessionTable) : Prop := (t.owners.map Prod.fst).Nodup

theorem not_mem_keys (h : t.connectionOf identity = none) : identity ∉ t.owners.map Prod.fst := by
  intro hm
  have hsome := Entries.isSome_lookup_iff.2 hm
  rw [connectionOf] at h
  simp [h] at hsome

theorem Keyed.bind (h : t.Keyed) (identity : String) (connection : ConnectionId) :
    (t.bind identity connection).2.Keyed := by
  cases hc : t.connectionOf identity with
  | none =>
    rw [bind_of_free hc]
    exact List.nodup_cons.2 ⟨not_mem_keys hc, h⟩
  | some owner =>
    rw [bind_of_taken hc]
    exact h

theorem Keyed.unbind (h : t.Keyed) (identity : String) (connection : ConnectionId) :
    (t.unbind identity connection).2.Keyed := by
  by_cases hc : t.connectionOf identity = some connection
  · rw [unbind_of_owner hc]
    exact h.sublist (List.filter_sublist.map Prod.fst)
  · rw [unbind_of_not_owner hc]
    exact h

theorem Keyed.connectionOf_of_mem (h : t.Keyed) (hm : (identity, connection) ∈ t.owners) :
    t.connectionOf identity = some connection := by
  obtain ⟨before, after, heq⟩ := List.append_of_mem hm
  refine List.lookup_eq_some_iff.2 ⟨before, after, heq, fun entry he => ?_⟩
  rw [Keyed, heq, List.map_append, List.nodup_append] at h
  have hne := h.2.2 entry.1 (List.mem_map_of_mem he) identity (by simp)
  rw [bne_iff_ne]
  exact hne.symm

/-! ## How many there are -/

theorem size_bind_le (identity : String) (connection : ConnectionId) :
    (t.bind identity connection).2.size ≤ t.size + 1 := by
  cases hc : t.connectionOf identity with
  | none =>
    rw [bind_of_free hc]
    exact Nat.le_refl _
  | some owner =>
    rw [bind_of_taken hc]
    exact Nat.le_succ _

theorem size_unbind_le (identity : String) (connection : ConnectionId) :
    (t.unbind identity connection).2.size ≤ t.size := by
  unfold unbind
  split_ifs
  · exact List.length_filter_le _ _
  · exact Nat.le_refl _

/-- A release takes one entry away. -/
theorem Keyed.exists_unbind (h : t.Keyed) (hc : t.connectionOf identity = some connection) :
    ∃ t', t.unbind identity connection = (true, t') ∧ t'.size + 1 = t.size ∧
      t'.totalBinds = t.totalBinds ∧ t'.rejectedBinds = t.rejectedBinds := by
  obtain ⟨before, after, heq, -⟩ := List.lookup_eq_some_iff.1 hc
  have hone := List.count_eq_one_of_mem h (a := identity) (by rw [heq]; simp)
  rw [List.count, List.countP_map] at hone
  have hlength := List.length_eq_countP_add_countP
    ((· == identity) ∘ Prod.fst : String × ConnectionId → Bool) (l := t.owners)
  rw [hone] at hlength
  refine ⟨_, unbind_of_owner hc, ?_, rfl, rfl⟩
  rw [size, size, hlength, ← List.countP_eq_length_filter, Nat.add_comm]
  simp

end SealedChat.SessionTable
