import SealedChat.Toml.Reading

/-!
# What readings do

How a reading comes out depends on what is at the front of a text, so it is stated for a text with
anything behind. A reading of as much as there is needs to know where that ends: at a character of
another kind, or, for things in a row, where the next of them fails (`Repeats`).
-/

namespace SealedChat.Toml

namespace Reading

variable {α β : Type} {kind : Char → Bool} {c : Char} {a : α} {as : List α} {s t r cs : List Char}

/-! ## Sequences and choices -/

@[simp] theorem pure_apply (a : α) (s : List Char) : (pure a : Reading α) s = some (a, s) := rfl

@[simp] theorem failure_apply (s : List Char) : (failure : Reading α) s = none := rfl

@[simp] theorem bind_apply (p : Reading α) (f : α → Reading β) (s : List Char) :
    (p >>= f) s = (p s).bind fun x => f x.1 x.2 := rfl

@[simp] theorem map_apply (f : α → β) (p : Reading α) (s : List Char) :
    (f <$> p) s = (p s).map fun x => (f x.1, x.2) := by
  cases h : p s <;> simp [Functor.map, StateT.map, h]

@[simp] theorem seqRight_apply (p : Reading α) (q : Reading β) (s : List Char) :
    (p *> q) s = (p s).bind fun x => q x.2 := rfl

@[simp] theorem orElse_apply (p q : Reading α) (s : List Char) :
    (p <|> q) s = (p s).or (q s) := by
  cases h : p s <;> simp [HOrElse.hOrElse, OrElse.orElse, Alternative.orElse, StateT.orElse, h]

theorem attempt_apply (p : Reading α) (s : List Char) :
    attempt p s = ((p s).map fun x => (some x.1, x.2)).or (some (none, s)) := by
  simp [attempt]

theorem attempt_of_none {p : Reading α} (h : p s = none) : attempt p s = some (none, s) := by
  rw [attempt_apply, h, Option.map_none, Option.none_or]

theorem attempt_of_some {p : Reading α} (h : p s = some (a, r)) :
    attempt p s = some (some a, r) := by
  rw [attempt_apply, h, Option.map_some, Option.some_or]

@[simp] theorem peek_apply (s : List Char) : peek s = some (s.head?, s) := rfl

@[simp] theorem finished_nil : finished [] = some ((), []) := rfl

@[simp] theorem refuse_apply (condition : Bool) (s : List Char) :
    refuse condition s = if condition then none else some ((), s) := by
  cases condition <;> rfl

/-! ## Characters -/

@[simp] theorem one_cons (kind : Char → Bool) (c : Char) (r : List Char) :
    one kind (c :: r) = if kind c then some (c, r) else none := rfl

@[simp] theorem exactly_cons (c d : Char) (r : List Char) :
    exactly c (d :: r) = if d = c then some ((), r) else none := by
  by_cases h : d = c <;> simp [exactly, h]

@[simp] theorem literal_nil (s : List Char) : literal [] s = some ((), s) := rfl

@[simp] theorem literal_cons (c : Char) (cs s : List Char) :
    literal (c :: cs) s = (exactly c s).bind fun x => literal cs x.2 := rfl

/-! ## Characters of a kind -/

theorem span_append (hcs : ∀ d ∈ cs, kind d = true) (hc : kind c = false) (r : List Char) :
    span kind (cs ++ c :: r) = some (cs, c :: r) := by
  rw [span, List.takeWhile_append_of_pos hcs, List.dropWhile_append_of_pos hcs,
    List.takeWhile_cons_of_neg (by simp [hc]), List.dropWhile_cons_of_neg (by simp [hc]),
    List.append_nil]

theorem span_cons_of_false (hc : kind c = false) (r : List Char) :
    span kind (c :: r) = some ([], c :: r) :=
  span_append (show ∀ d ∈ [], kind d = true from nofun) hc r

theorem span₁_append (hne : cs ≠ []) (hcs : ∀ d ∈ cs, kind d = true) (hc : kind c = false)
    (r : List Char) : span₁ kind (cs ++ c :: r) = some (cs, c :: r) := by
  obtain ⟨d, cs, rfl⟩ := List.exists_cons_of_ne_nil hne
  rw [List.forall_mem_cons] at hcs
  simp [span₁, hcs.1, span_append hcs.2 hc]

theorem span₁_cons_of_false (hc : kind c = false) (r : List Char) : span₁ kind (c :: r) = none := by
  simp [span₁, hc]

theorem times_append {n : Nat} (hn : cs.length = n) (hcs : ∀ d ∈ cs, kind d = true)
    (r : List Char) : times kind n (cs ++ r) = some (cs, r) := by
  induction cs generalizing n with
  | nil =>
    subst hn
    rfl
  | cons d cs ih =>
    subst hn
    rw [List.forall_mem_cons] at hcs
    simp [times, hcs.1, ih rfl hcs.2]

/-! ## Things in a row -/

/-- The reading `p` takes `as` from the front of a text, one after the other, and fails at what is
left. -/
inductive Repeats (p : Reading α) : List Char → List α → List Char → Prop
  | nil {s : List Char} : p s = none → Repeats p s [] s
  | cons {s r t : List Char} {a : α} {as : List α} :
      p s = some (a, r) → r.length < s.length → Repeats p r as t → Repeats p s (a :: as) t

theorem Repeats.upTo {p : Reading α} (h : Repeats p s as t) {bound : List Char}
    (hb : s.length ≤ bound.length) : upTo p bound s = some (as, t) := by
  induction h generalizing bound with
  | @nil s hp =>
    cases bound with
    | nil => rfl
    | cons b bound => simp [Reading.upTo, hp]
  | @cons s r t a as hp hlt _ ih =>
    cases bound with
    | nil => exact absurd hb (by simp only [List.length_nil]; omega)
    | cons b bound =>
      have hr : r.length ≤ bound.length := by
        rw [List.length_cons] at hb
        omega
      simp [Reading.upTo, hp, ih hr]

theorem Repeats.many {p : Reading α} (h : Repeats p s as t) : many p s = some (as, t) :=
  h.upTo (Nat.le_refl _)

theorem many_of_none {p : Reading α} (h : p s = none) : many p s = some ([], s) :=
  (Repeats.nil h).many

/-- The pieces of a text that `p` takes one by one, with something in front of it that it takes
first. -/
theorem Repeats.append {p : Reading α} (hne : cs ≠ []) (hp : p (cs ++ s) = some (a, s))
    (h : Repeats p s as t) : Repeats p (cs ++ s) (a :: as) t := by
  refine .cons hp ?_ h
  have hpos := List.length_pos_iff.2 hne
  rw [List.length_append]
  omega

end Reading

/-! ## Blanks and line breaks -/

open Reading

variable {c : Char} {r : List Char}

theorem gap_cons (hc : isGap c = false) (r : List Char) : gap (c :: r) = some ((), c :: r) := by
  simp [gap, span_cons_of_false hc]

theorem gap_space (r : List Char) : gap (' ' :: r) = gap r := rfl

end SealedChat.Toml
