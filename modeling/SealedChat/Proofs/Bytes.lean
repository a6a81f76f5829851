import Mathlib.Algebra.Group.Nat.Defs
import SealedChat.Bytes

/-!
# Numbers, groups and exclusive or

A number below 256ʷ is read back from its `w` bytes; the groups of a string make up the string; what
is combined twice with one stream is what it was.
-/

namespace SealedChat.Bytes

/-! ## Numbers -/

theorem toNat_littleEndian (w v : Nat) : toNat (littleEndian w v) = v % 256 ^ w := by
  induction w generalizing v with
  | zero => simp [littleEndian, toNat, Nat.mod_one]
  | succ w ih =>
    have hb : (UInt8.ofNat v).toNat = v % 256 := rfl
    rw [littleEndian, toNat, ih, hb, Nat.pow_succ', Nat.mod_mul]

theorem littleEndian_injOn {w v v' : Nat} (hv : v < 256 ^ w) (hv' : v' < 256 ^ w)
    (h : littleEndian w v = littleEndian w v') : v = v' := by
  have := congrArg toNat h
  rwa [toNat_littleEndian, toNat_littleEndian, Nat.mod_eq_of_lt hv, Nat.mod_eq_of_lt hv'] at this

theorem bigEndian_injOn {w v v' : Nat} (hv : v < 256 ^ w) (hv' : v' < 256 ^ w)
    (h : bigEndian w v = bigEndian w v') : v = v' :=
  littleEndian_injOn hv hv' (List.reverse_inj.1 h)

/-! ## Groups -/

/-- More rounds than bytes change nothing. -/
theorem groups_go_congr {n : Nat} (hn : 0 < n) {k l : Nat} {b : Bytes} (hk : b.length ≤ k)
    (hl : b.length ≤ l) : groups.go n k b = groups.go n l b := by
  induction k generalizing l b with
  | zero =>
    obtain rfl := List.length_eq_zero_iff.1 (Nat.le_zero.1 hk)
    cases l <;> rfl
  | succ k ih =>
    cases b with
    | nil => cases l <;> rfl
    | cons x r =>
      obtain ⟨l, rfl⟩ : ∃ m, l = m + 1 := Nat.exists_eq_succ_of_ne_zero (by
        rintro rfl
        simp at hl)
      have hd : ((x :: r).drop n).length ≤ r.length := by
        rw [List.length_drop, List.length_cons]
        omega
      rw [List.length_cons] at hk hl
      rw [groups.go, groups.go, ih (b := (x :: r).drop n) (l := l) (by omega) (by omega)] <;> simp

theorem groups_of_ne_nil {n : Nat} (hn : 0 < n) {b : Bytes} (hb : b ≠ []) :
    groups n b = b.take n :: groups n (b.drop n) := by
  obtain ⟨x, r, rfl⟩ := List.exists_cons_of_ne_nil hb
  have hd : ((x :: r).drop n).length ≤ r.length := by
    rw [List.length_drop, List.length_cons]
    omega
  rw [groups, List.length_cons, groups.go, groups, groups_go_congr hn hd (Nat.le_refl _)]
  simp

/-! ## Exclusive or -/

theorem xor_comm (a b : Bytes) : xor a b = xor b a :=
  List.zipWith_comm_of_comm fun x y => UInt8.xor_comm x y

theorem xor_xor {a b : Bytes} (h : a.length ≤ b.length) : xor (xor a b) b = a := by
  induction a generalizing b with
  | nil => rfl
  | cons x a ih =>
    cases b with
    | nil => simp at h
    | cons y b =>
      rw [List.length_cons, List.length_cons, Nat.succ_le_succ_iff] at h
      have := ih h
      simp only [xor, List.zipWith_cons_cons] at this ⊢
      rw [this, UInt8.xor_assoc, UInt8.xor_self, UInt8.xor_zero]

end SealedChat.Bytes
