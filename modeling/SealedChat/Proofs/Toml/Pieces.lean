import SealedChat.Proofs.Toml.Reading
import SealedChat.Toml.Text

/-!
# Strings in pieces

A string between three quotes is read in pieces: rows of up to two quotes, single line breaks, runs of
characters that stand for themselves as long as there are, and what else the kind of string knows.
Up to two quotes at the end of the string are no piece, since they are read together with the closing
ones.

What may stand between the quotes is described character by character (`Stands`), and read piece by
piece. The two meet in what has been begun of the next piece (`Begun`): it goes on with the next
character, or it is read as a whole and the next character begins another. So the string is read as
what it stands for, and what is behind it is left (`tripleString_of_stands`).
-/

namespace SealedChat.Toml

open Reading

variable {c d quote : Char} {plain : Char → Bool} {piece : Reading (List Char)}
  {w cs s t : List Char} {n run : Nat}

/-! ## What stands between three quotes -/

/-- What a piece of a string between three quotes is, apart from its quotes and line breaks: a run
of `plain` characters, or it starts with something else. -/
structure IsPiece (quote : Char) (plain : Char → Bool) (piece : Reading (List Char)) : Prop where
  chunk : ∀ {w d}, w ≠ [] → (∀ c ∈ w, plain c = true) → plain d = false →
    ∀ r, piece (w ++ d :: r) = some (w, d :: r)
  not_quote : ∀ r, piece (quote :: r) = none
  not_plain : ∀ c ∈ [quote, '\n', '\r'], plain c = false
  not_break : quote ≠ '\n' ∧ quote ≠ '\r'

/-- `w` may stand between three quotes for `cs`, directly behind `run` quotes. -/
inductive Stands (quote : Char) (plain : Char → Bool) (piece : Reading (List Char)) :
    Nat → List Char → List Char → Prop
  | nil {run : Nat} : Stands quote plain piece run [] []
  | quote {run : Nat} {w cs : List Char} : run < 2 → Stands quote plain piece (run + 1) w cs →
      Stands quote plain piece run (quote :: w) (quote :: cs)
  | line {run : Nat} {w cs : List Char} : Stands quote plain piece 0 w cs →
      Stands quote plain piece run ('\n' :: w) ('\n' :: cs)
  | plain {run : Nat} {w cs : List Char} {c : Char} : plain c = true →
      Stands quote plain piece 0 w cs → Stands quote plain piece run (c :: w) (c :: cs)
  | piece {run : Nat} {w v cs : List Char} {c d : Char} : plain d = false →
      d ∉ [quote, '\n', '\r'] → (∀ r, piece (d :: v ++ r) = some ([c], r)) →
      Stands quote plain piece 0 w cs → Stands quote plain piece run (d :: v ++ w) (c :: cs)

/-! ## Single pieces -/

/-- The next piece of a string between three quotes. -/
def nextPiece (quote : Char) (piece : Reading (List Char)) : Reading (List Char) :=
  looseQuotes quote <|> brokenLine <|> piece

theorem span₁_replicate (hn : 0 < n) (hd : d ≠ quote) (r : List Char) :
    span₁ (· = quote) (List.replicate n quote ++ d :: r) =
      some (List.replicate n quote, d :: r) := by
  refine span₁_append (by simp; omega) ?_ (by simpa using hd) r
  intro c hc
  simp [List.eq_of_mem_replicate hc]

theorem looseQuotes_replicate (hn : 0 < n) (hd : d ≠ quote) (r : List Char) :
    looseQuotes quote (List.replicate n quote ++ d :: r) =
      if n ≤ 2 then some (List.replicate n quote, d :: r) else none := by
  by_cases h : n ≤ 2 <;> simp [looseQuotes, span₁_replicate hn hd, h]

theorem looseQuotes_cons (hd : d ≠ quote) (r : List Char) : looseQuotes quote (d :: r) = none := by
  simp [looseQuotes, span₁, hd]

theorem closingQuotes_replicate (hn : n ≤ 2) (hd : d ≠ quote) (r : List Char) :
    closingQuotes quote (List.replicate (n + 3) quote ++ d :: r) =
      some (List.replicate n quote, d :: r) := by
  have htake : (List.replicate (n + 3) quote ++ d :: r).takeWhile (· = quote) =
      List.replicate (n + 3) quote := by
    rw [List.takeWhile_append_of_pos (by simp), List.takeWhile_cons_of_neg (by simpa using hd),
      List.append_nil]
  have hown : min 2 n = n := by omega
  have hdrop : (List.replicate (n + 3) quote ++ d :: r).drop (n + 3) = d :: r :=
    List.drop_left' List.length_replicate
  simp only [closingQuotes, htake, List.length_replicate, Nat.add_sub_cancel, hown, hdrop]
  rw [if_neg (by omega)]

theorem nextPiece_newline (hp : IsPiece quote plain piece) (r : List Char) :
    nextPiece quote piece ('\n' :: r) = some (['\n'], r) := by
  simp [nextPiece, looseQuotes_cons (Ne.symm hp.not_break.1), brokenLine, newline]

theorem newline_cons (hd : d ∉ [quote, '\n', '\r']) (r : List Char) :
    newline (d :: r) = none := by
  simp only [List.mem_cons, List.not_mem_nil, or_false, not_or] at hd
  simp [newline, hd.2.1, hd.2.2]

theorem nextPiece_cons (hd : d ∉ [quote, '\n', '\r']) (r : List Char) :
    nextPiece quote piece (d :: r) = piece (d :: r) := by
  have hquote : d ≠ quote := fun heq => hd (by simp [heq])
  simp [nextPiece, looseQuotes_cons hquote, brokenLine, newline_cons hd]

theorem IsPiece.not_mem (hp : IsPiece quote plain piece) (hc : plain c = true) :
    c ∉ [quote, '\n', '\r'] := by
  intro hm
  rw [hp.not_plain c hm] at hc
  cases hc

theorem nextPiece_chunk (hp : IsPiece quote plain piece) (hne : w ≠ [])
    (hw : ∀ c ∈ w, plain c = true) (hd : plain d = false) (r : List Char) :
    nextPiece quote piece (w ++ d :: r) = some (w, d :: r) := by
  have hread := hp.chunk hne hw hd r
  obtain ⟨c, w, rfl⟩ := List.exists_cons_of_ne_nil hne
  rw [List.cons_append, nextPiece_cons (hp.not_mem (hw c (List.mem_cons_self ..))),
    ← List.cons_append, hread]

theorem nextPiece_row (hn : 0 < n) (hle : n ≤ 2) (hd : d ≠ quote) (r : List Char) :
    nextPiece quote piece (List.replicate n quote ++ d :: r) =
      some (List.replicate n quote, d :: r) := by
  rw [nextPiece, orElse_apply, looseQuotes_replicate hn hd, if_pos hle, Option.some_or]

/-- The quotes at the end of a string are not a piece. -/
theorem nextPiece_closing (hp : IsPiece quote plain piece) (n : Nat) (hd : d ≠ quote)
    (r : List Char) : nextPiece quote piece (List.replicate (n + 3) quote ++ d :: r) = none := by
  have hloose := looseQuotes_replicate (Nat.succ_pos (n + 2)) hd r
  rw [if_neg (by omega)] at hloose
  rw [nextPiece, orElse_apply, hloose, orElse_apply, List.replicate_succ, List.cons_append,
    hp.not_quote]
  simp [brokenLine, newline, hp.not_break.1, hp.not_break.2]

/-! ## All pieces -/

/-- From `s` pieces are read for `cs`, up to the quotes at the end, of which all but three belong to
`cs`; behind them is `t`. -/
def IsReadAs (quote : Char) (piece : Reading (List Char)) (s cs t : List Char) : Prop :=
  ∃ ps n, n ≤ 2 ∧ ps.flatten ++ List.replicate n quote = cs ∧
    Repeats (nextPiece quote piece) s ps (List.replicate (n + 3) quote ++ t)

theorem isReadAs_closing (hp : IsPiece quote plain piece) (hn : n ≤ 2) (hd : d ≠ quote)
    (r : List Char) :
    IsReadAs quote piece (List.replicate n quote ++ quote :: quote :: quote :: d :: r)
      (List.replicate n quote) (d :: r) := by
  have hquotes : List.replicate n quote ++ quote :: quote :: quote :: d :: r =
      List.replicate (n + 3) quote ++ d :: r := by
    rw [← List.replicate_append_replicate, List.append_assoc]
    rfl
  rw [hquotes]
  exact ⟨[], n, hn, rfl, .nil (nextPiece_closing hp n hd r)⟩

theorem IsReadAs.append {v : List Char} (hne : w ≠ [])
    (hread : nextPiece quote piece (w ++ s) = some (v, s)) (h : IsReadAs quote piece s cs t) :
    IsReadAs quote piece (w ++ s) (v ++ cs) t := by
  obtain ⟨ps, n, hn, hcs, hps⟩ := h
  refine ⟨v :: ps, n, hn, ?_, hps.append hne hread⟩
  rw [List.flatten_cons, List.append_assoc, hcs]

theorem IsReadAs.row (hle : n ≤ 2) (hd : d ≠ quote) (h : IsReadAs quote piece (d :: s) cs t) :
    IsReadAs quote piece (List.replicate n quote ++ d :: s) (List.replicate n quote ++ cs) t := by
  rcases Nat.eq_zero_or_pos n with rfl | hn
  · exact h
  · exact h.append (by simp; omega) (nextPiece_row hn hle hd s)

/-- What is before the next character and not yet read: a row of quotes, or a run of plain
characters. -/
inductive Begun (quote : Char) (plain : Char → Bool) : List Char → Nat → Prop
  | row {n : Nat} : n ≤ 2 → Begun quote plain (List.replicate n quote) n
  | chunk {w : List Char} : w ≠ [] → (∀ c ∈ w, plain c = true) → Begun quote plain w 0

/-- What has been begun is a piece, if it cannot go on with the next character. -/
theorem Begun.isReadAs (hp : IsPiece quote plain piece) (hw : Begun quote plain w run)
    (hd : d ≠ quote) (hplain : plain d = false) (h : IsReadAs quote piece (d :: s) cs t) :
    IsReadAs quote piece (w ++ d :: s) (w ++ cs) t := by
  cases hw with
  | row hle => exact h.row hle hd
  | chunk hne hall => exact h.append hne (nextPiece_chunk hp hne hall hplain s)

/-- What may stand between three quotes is read as what it stands for. -/
theorem Stands.isReadAs (hp : IsPiece quote plain piece) {v : List Char}
    (h : Stands quote plain piece run v cs) (hw : Begun quote plain w run) (hd : d ≠ quote)
    (r : List Char) :
    IsReadAs quote piece (w ++ (v ++ quote :: quote :: quote :: d :: r)) (w ++ cs) (d :: r) := by
  have hquote : plain quote = false := hp.not_plain quote (List.mem_cons_self ..)
  have hfeed : plain '\n' = false := hp.not_plain '\n' (by simp)
  have hnone : Begun quote plain [] 0 := .row (Nat.zero_le 2)
  induction h generalizing w with
  | @nil run =>
    cases hw with
    | row hle =>
      rw [List.append_nil]
      exact isReadAs_closing hp hle hd r
    | chunk hne hall =>
      exact (isReadAs_closing hp (Nat.zero_le 2) hd r).append hne
        (nextPiece_chunk hp hne hall hquote _)
  | @quote run v cs hrun _ ih =>
    cases hw with
    | row hle =>
      -- the row goes on
      have hrow : List.replicate run quote ++ [quote] = List.replicate (run + 1) quote :=
        List.replicate_succ'.symm
      have hread := ih (.row hrun)
      rwa [← hrow, List.append_assoc, List.append_assoc] at hread
    | chunk hne hall =>
      exact (ih (.row (Nat.succ_le_of_lt hrun))).append hne
        (nextPiece_chunk hp hne hall hquote _)
  | line _ ih =>
    have hread := (ih hnone).append (List.cons_ne_nil '\n' []) (nextPiece_newline hp _)
    exact hw.isReadAs hp (Ne.symm hp.not_break.1) hfeed hread
  | @plain run v cs c hc _ ih =>
    cases hw with
    | row hle =>
      have hne : c ≠ quote := fun heq => hp.not_mem hc (by simp [heq])
      exact (ih (.chunk (List.cons_ne_nil c []) (by simpa using hc))).row hle hne
    | chunk hne hall =>
      -- the run goes on
      have hlonger : ∀ b ∈ w ++ [c], plain b = true := by
        intro b hb
        rcases List.mem_append.1 hb with hb | hb
        · exact hall b hb
        · rwa [List.mem_singleton.1 hb]
      have hread := ih (.chunk (by simp) hlonger)
      rwa [List.append_assoc, List.append_assoc] at hread
  | @piece run v u cs c e he hm hread _ ih =>
    have hne : e ≠ quote := fun heq => hm (by simp [heq])
    have hnext (s : List Char) : nextPiece quote piece (e :: u ++ s) = some ([c], s) := by
      rw [List.cons_append, nextPiece_cons hm, ← List.cons_append, hread]
    have hall := hw.isReadAs hp hne he ((ih hnone).append (List.cons_ne_nil e u) (hnext _))
    simpa using hall

theorem Stands.newline_eq_none (hp : IsPiece quote plain piece) {v : List Char}
    (h : Stands quote plain piece run v cs) (hfeed : '\n' ∉ cs) (r : List Char) :
    newline (v ++ quote :: r) = none := by
  have hquote (r : List Char) : newline (quote :: r) = none := by
    simp [newline, hp.not_break.1, hp.not_break.2]
  cases h with
  | nil => exact hquote _
  | quote => exact hquote _
  | line => simp at hfeed
  | plain hc => exact newline_cons (hp.not_mem hc) _
  | piece _ hm => exact newline_cons hm _

/-- **A string between three quotes is read as what it stands for.** A line break directly after the
opening quotes does not count, and is written if the string has another, so the first line break of
the string is not taken for it. -/
theorem tripleString_of_stands (hp : IsPiece quote plain piece) {v : List Char}
    (h : Stands quote plain piece 0 v cs) (hd : d ≠ quote) (r : List Char) :
    tripleString quote piece (quote :: quote :: quote ::
        ((if cs.any (· = '\n') then ['\n'] else []) ++
          (v ++ quote :: quote :: quote :: d :: r))) =
      some (String.ofList cs, d :: r) := by
  obtain ⟨ps, n, hn, hcs, hps⟩ := h.isReadAs hp (.row (Nat.zero_le 2)) hd r
  have hmany := hps.many
  have hlast := closingQuotes_replicate hn hd r
  unfold nextPiece at hmany
  simp only [List.replicate_zero, List.nil_append] at hmany hcs
  obtain ⟨o, hfirst⟩ : ∃ o, attempt newline ((if cs.any (· = '\n') then ['\n'] else []) ++
      (v ++ quote :: quote :: quote :: d :: r)) =
        some (o, v ++ quote :: quote :: quote :: d :: r) := by
    by_cases hfeed : '\n' ∈ cs
    · exact ⟨some (), attempt_of_some (by simp [newline, hfeed])⟩
    · refine ⟨none, ?_⟩
      rw [if_neg (by simpa using hfeed), List.nil_append]
      exact attempt_of_none (h.newline_eq_none hp hfeed _)
  generalize (if cs.any (· = '\n') then ['\n'] else []) = first at hfirst ⊢
  subst hcs
  simp [tripleString, hfirst, hmany, hlast]

end SealedChat.Toml
