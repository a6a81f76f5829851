import SealedChat.Proofs.Toml.Text
import SealedChat.Toml.Number

/-!
# Values are read as they were written

A value is a string, a number or a switch. A number is read back if it is below 2⁶³, and only as an
integer: a fraction, an exponent or a date would need a character that is not a digit.
-/

namespace SealedChat

namespace Digits

variable {c d : Char}

theorem ne_of_isOf {base : Nat} (hc : isOf base c = true) (hd : isOf base d = false) : c ≠ d := by
  rintro rfl
  rw [hc] at hd
  cases hd

theorem isOf_of_mem_toDigits {n : Nat} (hc : c ∈ Nat.toDigits 10 n) : isOf 10 c = true := by
  have hdigit : c.isDigit = true := Nat.isDigit_of_mem_toDigits (by decide) (Nat.le_refl 10) hc
  simp only [Char.isDigit, Bool.and_eq_true, decide_eq_true_eq] at hdigit
  obtain ⟨hlow, hhigh⟩ := hdigit
  have hrange : '0' ≤ c ∧ c ≤ '9' := ⟨hlow, hhigh⟩
  have hle : c.toNat ≤ 57 := UInt32.le_iff_toNat_le.1 hhigh
  have hbase : c.toNat - 48 < 10 := by omega
  simp [isOf, value?, hrange, hbase]

theorem not_mem_toDigits (hc : isOf 10 c = false) (n : Nat) : c ∉ Nat.toDigits 10 n := by
  intro hm
  rw [isOf_of_mem_toDigits hm] at hc
  cases hc

theorem getD_value?_digitChar : ∀ n < 10, (value? (Nat.digitChar n)).getD 0 = n := by decide

theorem numberTo_toDigits {bound n : Nat} (h : n < bound) :
    numberTo bound 10 (Nat.toDigits 10 n) = n := by
  induction n using Nat.strongRecOn with
  | ind n ih =>
    rcases Nat.lt_or_ge n 10 with hlt | hge
    · have hvalue := getD_value?_digitChar n hlt
      rw [Nat.toDigits_of_lt_base hlt, numberTo, List.foldl_cons, List.foldl_nil, hvalue,
        if_pos (Nat.zero_lt_of_lt h)]
      omega
    · rw [Nat.toDigits_of_base_le (by decide) hge, numberTo, List.foldl_append]
      have hquot := ih (n / 10) (by omega) (by omega)
      rw [numberTo] at hquot
      rw [hquot]
      simp only [List.foldl_cons, List.foldl_nil, getD_value?_digitChar _ (Nat.mod_lt n (by decide))]
      rw [if_pos (by omega)]
      omega

/-- No zeros are in front of a number. -/
theorem head?_toDigits {n : Nat} (h : (Nat.toDigits 10 n).head? = some '0') : n = 0 := by
  induction n using Nat.strongRecOn with
  | ind n ih =>
    rcases Nat.lt_or_ge n 10 with hlt | hge
    · rw [Nat.toDigits_of_lt_base hlt] at h
      simpa using h
    · obtain ⟨c, cs, hcs⟩ := List.exists_cons_of_ne_nil (Nat.toDigits_ne_nil (b := 10) (n := n / 10))
      have hzero := ih (n / 10) (by omega)
      rw [Nat.toDigits_of_base_le (by decide) hge, hcs] at h
      rw [hcs] at hzero
      have hquot := hzero h
      omega

/-- A number starts with a digit, which is a zero only if the number is. -/
theorem exists_toDigits (n : Nat) :
    ∃ c cs, Nat.toDigits 10 n = c :: cs ∧ isOf 10 c = true ∧ (c = '0' → n = 0) := by
  obtain ⟨c, cs, hcs⟩ := List.exists_cons_of_ne_nil (Nat.toDigits_ne_nil (b := 10) (n := n))
  refine ⟨c, cs, hcs, isOf_of_mem_toDigits (n := n) (by simp [hcs]), fun heq => ?_⟩
  exact head?_toDigits (by rw [hcs, heq, List.head?_cons])

end Digits

namespace Toml

open Reading Digits

variable {c d sep : Char} {ds r : List Char} {n : Nat}

/-! ## Digits and what is not a digit -/

theorem exactly_append (hds : sep ∉ ds) (hc : c ≠ sep) (r : List Char) :
    exactly sep (ds ++ c :: r) = none := by
  cases ds with
  | nil => simp [hc]
  | cons d ds =>
    rw [List.mem_cons, not_or] at hds
    simp [Ne.symm hds.1]

theorem digits_append {kind : Char → Bool} (hne : ds ≠ []) (hds : ∀ d ∈ ds, kind d = true)
    (hc : kind c = false) (hline : kind '_' = false) (hc' : c ≠ '_') (r : List Char) :
    digits kind (ds ++ c :: r) = some (ds, c :: r) := by
  have hone {d : Char} (hd : kind d = true) (s : List Char) :
      ((do exactly '_'; one kind) <|> one kind : Reading Char) (d :: s) = some (d, s) := by
    have hne : d ≠ '_' := by
      rintro rfl
      rw [hd] at hline
      cases hline
    simp [hne, hd]
  have hrest (ds : List Char) (hds : ∀ d ∈ ds, kind d = true) :
      Repeats ((do exactly '_'; one kind) <|> one kind) (ds ++ c :: r) ds (c :: r) := by
    induction ds with
    | nil => exact .nil (by simp [hc, hc'])
    | cons d ds ih =>
      rw [List.forall_mem_cons] at hds
      exact .cons (hone hds.1 _) (Nat.lt_succ_self _) (ih hds.2)
  obtain ⟨d, ds, rfl⟩ := List.exists_cons_of_ne_nil hne
  rw [List.forall_mem_cons] at hds
  simp [digits, hds.1, (hrest ds hds.2).many]

theorem sign_cons (hc : c ≠ '+' ∧ c ≠ '-') (r : List Char) : sign (c :: r) = some (none, c :: r) :=
  attempt_of_none (by simp [hc])

theorem decimalDigits_toDigits (n : Nat) (r : List Char) :
    decimalDigits (Nat.toDigits 10 n ++ '\n' :: r) = some (Nat.toDigits 10 n, '\n' :: r) := by
  by_cases hn : n = 0
  · subst hn
    rfl
  · have hdigits := digits_append Nat.toDigits_ne_nil (fun d => isOf_of_mem_toDigits (n := n))
      (show isOf 10 '\n' = false by decide) (by decide) (by decide) r
    obtain ⟨c, cs, hcs, -, hzero⟩ := exists_toDigits n
    have hc : c ≠ '0' := fun heq => hn (hzero heq)
    rw [hcs] at hdigits ⊢
    simpa [decimalDigits, hc] using hdigits

/-! ## Numbers are nothing else -/

theorem exactly_of_times (hds : sep ∉ ds) {kind : Char → Bool} (hc : kind c = false) (hne : c ≠ sep)
    {width : Nat} {w s : List Char} (h : times kind width (ds ++ c :: r) = some (w, s)) :
    exactly sep s = none := by
  induction width generalizing ds w with
  | zero =>
    cases h
    exact exactly_append hds hne r
  | succ width ih =>
    cases ds with
    | nil => simp [times, hc] at h
    | cons d ds =>
      rw [List.mem_cons, not_or] at hds
      by_cases hd : kind d = true
      · simp only [times, List.cons_append, bind_apply, one_cons, hd, if_true, Option.bind_some] at h
        obtain ⟨⟨w', s'⟩, htimes, heq⟩ := Option.bind_eq_some_iff.1 h
        cases heq
        exact ih hds.2 htimes
      · simp [times, hd] at h

/-- Dates and times need a dash or a colon behind their first number. -/
theorem bounded_exactly {α : Type} (hds : sep ∉ ds) (hc : isOf 10 c = false) (hne : c ≠ sep)
    (width low high : Nat) (next : Nat → Unit → Reading α) (r : List Char) :
    (bounded width low high >>= fun n => exactly sep >>= next n : Reading α) (ds ++ c :: r) =
      none := by
  cases ht : times (isOf 10) width (ds ++ c :: r) with
  | none => simp [bounded, ht]
  | some x =>
    have hsep := exactly_of_times hds hc hne ht
    simp only [bounded, bind_apply, ht, Option.bind_some]
    split <;> simp [hsep]

theorem date_toDigits (n : Nat) (r : List Char) : date (Nat.toDigits 10 n ++ '\n' :: r) = none := by
  have hday : day (Nat.toDigits 10 n ++ '\n' :: r) = none :=
    bounded_exactly (not_mem_toDigits (by decide) n) (by decide) (by decide) 4 0 9999 _ r
  have htime : time (Nat.toDigits 10 n ++ '\n' :: r) = none :=
    bounded_exactly (not_mem_toDigits (by decide) n) (by decide) (by decide) 2 0 23 _ r
  simp [date, dateParts, hday, htime]

theorem float_toDigits (n : Nat) (r : List Char) :
    float (Nat.toDigits 10 n ++ '\n' :: r) = none := by
  have hdigits := decimalDigits_toDigits n r
  obtain ⟨c, cs, hcs, hc, -⟩ := exists_toDigits n
  have hsign (r : List Char) : sign (c :: r) = some (none, c :: r) :=
    sign_cons ⟨ne_of_isOf hc (by decide), ne_of_isOf hc (by decide)⟩ r
  have hi : c ≠ 'i' := ne_of_isOf hc (by decide)
  have hn : c ≠ 'n' := ne_of_isOf hc (by decide)
  have hfraction : attempt fraction ('\n' :: r) = some (none, '\n' :: r) := rfl
  have hexponent : attempt exponent ('\n' :: r) = some (none, '\n' :: r) := rfl
  rw [hcs, List.cons_append] at hdigits ⊢
  have hfractional : fractional (c :: (cs ++ '\n' :: r)) = none := by
    simp [fractional, hsign, hdigits, hfraction, hexponent]
  have hspecial : special (c :: (cs ++ '\n' :: r)) = none := by
    simp [special, hsign, hi, hn]
  rw [float, orElse_apply, hfractional, hspecial, Option.none_or]

theorem marked_toDigits {letter : Char} (hl : '\n' ≠ letter) (base n : Nat) (r : List Char) :
    marked letter base (Nat.toDigits 10 n ++ '\n' :: r) = none := by
  by_cases hn : n = 0
  · subst hn
    simp [marked, Nat.toDigits_zero, hl]
  · obtain ⟨c, cs, hcs, -, hzero⟩ := exists_toDigits n
    have hc : c ≠ '0' := fun heq => hn (hzero heq)
    simp [marked, hcs, hc]

theorem integer_toDigits (h : n < Nat.pow 2 63) (r : List Char) :
    integer (Nat.toDigits 10 n ++ '\n' :: r) = some (.integer n, '\n' :: r) := by
  have hdigits := decimalDigits_toDigits n r
  have hmagnitude : magnitude 10 (Nat.toDigits 10 n) = n := numberTo_toDigits (Nat.lt_succ_of_lt h)
  have hfits : fitsWord (n : Int) = true := decide_eq_true h
  have hsign : sign (Nat.toDigits 10 n ++ '\n' :: r) =
      some (none, Nat.toDigits 10 n ++ '\n' :: r) := by
    obtain ⟨c, cs, hcs, hc, -⟩ := exists_toDigits n
    rw [hcs]
    exact sign_cons ⟨ne_of_isOf hc (by decide), ne_of_isOf hc (by decide)⟩ _
  simp only [integer, orElse_apply, marked_toDigits (show '\n' ≠ 'x' by decide),
    marked_toDigits (show '\n' ≠ 'o' by decide), marked_toDigits (show '\n' ≠ 'b' by decide),
    Option.none_or]
  simp [decimal, hsign, hdigits, hmagnitude, int64, hfits]

/-- Strings start with quotes. -/
theorem text_cons (hc : c ≠ '"' ∧ c ≠ '\'') (r : List Char) : text (c :: r) = none := by
  simp [text, tripleString, basicString, literalString, hc]

theorem scalar_toDigits (h : n < Nat.pow 2 63) (r : List Char) :
    scalar (Nat.toDigits 10 n ++ '\n' :: r) = some (.integer n, '\n' :: r) := by
  have htext : text (Nat.toDigits 10 n ++ '\n' :: r) = none := by
    obtain ⟨c, cs, hcs, hc, -⟩ := exists_toDigits n
    rw [hcs]
    exact text_cons ⟨ne_of_isOf hc (by decide), ne_of_isOf hc (by decide)⟩ _
  simp [scalar, htext, date_toDigits, float_toDigits, integer_toDigits h]

/-! ## Values -/

/-- What a value is in a table. -/
def Scalar.item : Scalar → Item
  | string s => .string s
  | integer n => .integer n
  | boolean b => .boolean b

/-- Integers have 64 bits, and one of them is the sign. -/
def Scalar.Fits (v : Scalar) : Prop := ∀ n, v = .integer n → n < Nat.pow 2 63

/-- **Values are read as they were written.** -/
theorem scalar_printScalar {v : Scalar} (h : v.Fits) (r : List Char) :
    scalar (printScalar v ++ '\n' :: r) = some (v.item, '\n' :: r) := by
  cases v with
  | string s => simp [scalar, printScalar, text_printString, Scalar.item]
  | integer n => exact scalar_toDigits (h n rfl) r
  | boolean b => cases b <;> rfl

end Toml

end SealedChat
