import Mathlib.Tactic.SplitIfs
import SealedChat.Proofs.Toml.Pieces
import SealedChat.Toml.Print

/-!
# Strings are read as they were written

Whatever quotes a string is written between, it is read back as it was (`text_printString`), and what
stands behind it is left. Between double quotes every character stands for itself or is escaped, and
what is escaped is recognised by its backslash; between single quotes there are only characters that
stand for themselves. The four kinds of string are told apart by their first characters.
-/

namespace SealedChat.Toml

open Reading

variable {c d : Char} {w cs : List Char} {triple : Bool} {run : Nat}

/-! ## Escapes -/

/-- What may stand directly after a backslash. -/
def escapeLetters : List Char := "btnfr\"\\u".toList

/-- What is written for a character, with a backslash in front. -/
def Escapes (w : List Char) (c : Char) : Prop :=
  ∃ d body, w = '\\' :: d :: body ∧ d ∈ escapeLetters ∧
    ∀ r, escaped (d :: body ++ r) = some (c, r)

theorem Escapes.escape (h : Escapes w c) (r : List Char) : escape (w ++ r) = some (c, r) := by
  obtain ⟨d, body, rfl, -, hread⟩ := h
  simpa [Toml.escape] using hread r

/-- It is not a backslash at the end of a line. -/
theorem Escapes.lineJoin (h : Escapes w c) (r : List Char) : lineJoin (w ++ r) = none := by
  obtain ⟨d, body, rfl, hd, -⟩ := h
  have hletters : escapeLetters.all fun d => !isGap d && d != '\n' && d != '\r' := by decide
  have hletter := List.all_eq_true.1 hletters d hd
  simp only [Bool.and_eq_true, Bool.not_eq_true', bne_iff_ne] at hletter
  obtain ⟨⟨hgap, hfeed⟩, hreturn⟩ := hletter
  simp [Toml.lineJoin, gap, newline, span_cons_of_false hgap, hfeed, hreturn]

theorem escapes_quote : Escapes ['\\', '"'] '"' := ⟨'"', [], rfl, by decide, fun _ => rfl⟩

theorem hexDigits_ascii : ∀ n < 128, (hexDigits 4 n).length = 4 ∧
    (hexDigits 4 n).all (Digits.isOf 16) = true ∧ Digits.number 16 (hexDigits 4 n) = n := by
  decide

theorem escapes_hexDigits (hc : c.toNat < 128) : Escapes ('\\' :: 'u' :: hexDigits 4 c.toNat) c := by
  refine ⟨'u', _, rfl, by decide, fun r => ?_⟩
  obtain ⟨hlength, hdigits, hnumber⟩ := hexDigits_ascii c.toNat hc
  have htimes := times_append hlength (List.all_eq_true.1 hdigits) r
  have hvalid : c.toNat.isValidChar := c.valid
  have hread : codePoint 4 (hexDigits 4 c.toNat ++ r) = some (c, r) := by
    simp [codePoint, htimes, hnumber, hvalid, Char.ofNat_toNat]
  simpa [escaped] using hread

/-! ## Characters -/

/-- A character that stands for itself between double quotes. -/
def isPlain (c : Char) : Bool := isPrintable c && c != '"' && c != '\\'

theorem isPrintable_of_needsEscape (hc : needsEscape c = false) (hfeed : c ≠ '\n') :
    isPrintable c = true := by
  by_cases htab : c = '\t'
  · subst htab
    decide
  · have hspace : ¬c < ' ' := by
      intro hlt
      simp [needsEscape, hlt, htab, hfeed] at hc
    have hdel : c ≠ '\x7f' := by
      rintro rfl
      exact absurd hc (by decide)
    simp [isPrintable, Char.not_lt.1 hspace, hdel]

theorem toNat_of_needsEscape (hc : needsEscape c = true) : c.toNat < 128 := by
  simp only [needsEscape, Bool.or_eq_true, Bool.and_eq_true, decide_eq_true_eq] at hc
  rcases hc with ⟨⟨hspace, -⟩, -⟩ | rfl
  · exact Nat.lt_trans (UInt32.lt_iff_toNat_lt.1 hspace) (by decide)
  · decide

/-- Between double quotes a character stands for itself, or is escaped; between three of them a line
break is neither. -/
theorem escapedChar_cases (triple : Bool) (hc : c ≠ '"') :
    (escapedChar triple c = [c] ∧ isPlain c = true) ∨
      (escapedChar triple c = ['\n'] ∧ c = '\n' ∧ triple = true) ∨
      Escapes (escapedChar triple c) c := by
  unfold escapedChar
  split
  case h_1 => exact .inr (.inr ⟨'b', [], rfl, by decide, fun _ => rfl⟩)
  case h_2 => exact .inr (.inr ⟨'t', [], rfl, by decide, fun _ => rfl⟩)
  case h_3 =>
    cases triple with
    | false => exact .inr (.inr ⟨'n', [], rfl, by decide, fun _ => rfl⟩)
    | true => exact .inr (.inl ⟨rfl, rfl, rfl⟩)
  case h_4 => exact .inr (.inr ⟨'f', [], rfl, by decide, fun _ => rfl⟩)
  case h_5 => exact .inr (.inr ⟨'r', [], rfl, by decide, fun _ => rfl⟩)
  case h_6 => exact .inr (.inr ⟨'\\', [], rfl, by decide, fun _ => rfl⟩)
  case h_7 _ _ _ hfeed _ _ hslash =>
    by_cases hesc : needsEscape c = true
    · rw [if_pos hesc]
      exact .inr (.inr (escapes_hexDigits (toNat_of_needsEscape hesc)))
    · rw [if_neg hesc]
      rw [Bool.not_eq_true] at hesc
      have hslash : c ≠ '\\' := hslash
      exact .inl ⟨rfl, by simp [isPlain, isPrintable_of_needsEscape hesc hfeed, hc, hslash]⟩

/-! ## On one line -/

theorem spelled_cons (hc : c ≠ '"') (run : Nat) (r : List Char) :
    spelled triple run (c :: r) = escapedChar triple c ++ spelled triple 0 r := by
  rw [spelled, if_neg hc]

/-- On one line a character stands for itself, or is escaped. -/
theorem exists_spelled (c : Char) (r : List Char) :
    ∃ w, spelled false 0 (c :: r) = w ++ spelled false 0 r ∧
      (w = [c] ∧ isPlain c = true ∨ Escapes w c) := by
  by_cases hc : c = '"'
  · subst hc
    exact ⟨['\\', '"'], rfl, .inr escapes_quote⟩
  · refine ⟨_, spelled_cons hc 0 r, ?_⟩
    rcases escapedChar_cases false hc with hplain | ⟨-, -, htriple⟩ | hesc
    · exact .inl hplain
    · cases htriple
    · exact .inr hesc

theorem repeats_spelled (cs r : List Char) :
    Repeats (one isPlain <|> escape) (spelled false 0 cs ++ '"' :: r) cs ('"' :: r) := by
  induction cs with
  | nil =>
    have hquote : isPlain '"' = false := by decide
    exact .nil (by simp [spelled, escape, hquote])
  | cons c cs ih =>
    obtain ⟨w, hw, ⟨rfl, hplain⟩ | hesc⟩ := exists_spelled c cs
    · rw [hw, List.append_assoc]
      exact ih.append (List.cons_ne_nil _ _) (by simp [hplain])
    · have hslash : isPlain '\\' = false := by decide
      have hread := hesc.escape (spelled false 0 cs ++ '"' :: r)
      obtain ⟨d, body, rfl, -, -⟩ := hesc
      rw [hw, List.append_assoc]
      refine ih.append (List.cons_ne_nil _ _) ?_
      rw [orElse_apply, hread, List.cons_append, one_cons, hslash]
      rfl

theorem basicString_spelled (cs r : List Char) :
    basicString ('"' :: spelled false 0 cs ++ '"' :: r) = some (String.ofList cs, r) := by
  have hmany : many (one isPlain <|> escape) (spelled false 0 cs ++ '"' :: r) =
      some (cs, '"' :: r) := (repeats_spelled cs r).many
  unfold isPlain at hmany
  simp [basicString, hmany]

theorem head?_spelled_ne (cs : List Char) : (spelled false 0 cs).head? ≠ some '"' := by
  cases cs with
  | nil => nofun
  | cons c cs =>
    obtain ⟨w, hw, ⟨rfl, hplain⟩ | ⟨_, _, rfl, -, -⟩⟩ := exists_spelled c cs
    · rw [hw]
      rintro heq
      cases heq
      cases hplain
    · rw [hw]
      nofun

/-- A string on one line does not look like one over several lines. -/
theorem tripleString_spelled (piece : Reading (List Char)) (cs : List Char) {c : Char}
    (hc : c ≠ '"') (r : List Char) :
    tripleString '"' piece ('"' :: spelled false 0 cs ++ '"' :: c :: r) = none := by
  cases hs : spelled false 0 cs with
  | nil => simp [tripleString, hc]
  | cons d w =>
    have hd : d ≠ '"' := by
      rintro rfl
      exact head?_spelled_ne cs (by rw [hs, List.head?_cons])
    simp [tripleString, hd]

theorem literalString_append (hcs : ∀ c ∈ cs, isPrintable c = true ∧ c ≠ '\'') (r : List Char) :
    literalString ('\'' :: cs ++ '\'' :: r) = some (String.ofList cs, r) := by
  have hspan : span (fun c => isPrintable c && c != '\'') (cs ++ '\'' :: r) =
      some (cs, '\'' :: r) := span_append (by simpa using hcs) (by decide) r
  simp [literalString, hspan]

/-! ## Over several lines -/

/-! ### With escapes -/

theorem span₁_plain_cons (hd : isPlain d = false) (r : List Char) :
    span₁ (fun c => isPrintable c && c != '"' && c != '\\') (d :: r) = none :=
  span₁_cons_of_false (show isPlain d = false from hd) r

theorem isPiece_basicPiece : IsPiece '"' isPlain basicPiece where
  chunk hne hw hd r := by
    have hspan := span₁_append hne hw hd r
    unfold isPlain at hspan
    simp [basicPiece, hspan]
  not_quote r := by
    simp [basicPiece, span₁_plain_cons (show isPlain '"' = false by decide), lineJoin, escape]
  not_plain := List.forall_mem_cons.2 ⟨by decide, List.forall_mem_cons.2
    ⟨by decide, List.forall_mem_singleton.2 (by decide)⟩⟩
  not_break := by decide

theorem basicPiece_escapes (h : Escapes w c) (r : List Char) :
    basicPiece (w ++ r) = some ([c], r) := by
  have hjoin := h.lineJoin r
  have hread := h.escape r
  obtain ⟨d, body, rfl, -, -⟩ := h
  rw [List.cons_append] at hjoin hread ⊢
  generalize d :: body ++ r = u at hjoin hread ⊢
  simp [basicPiece, span₁_plain_cons (show isPlain '\\' = false by decide), hjoin, hread]

theorem Stands.of_escapes (h : Escapes w c) {v : List Char}
    (hcs : Stands '"' isPlain basicPiece 0 v cs) :
    Stands '"' isPlain basicPiece run (w ++ v) (c :: cs) := by
  have hread := basicPiece_escapes h
  obtain ⟨d, body, rfl, -, -⟩ := h
  exact .piece (by decide) (by decide) hread hcs

theorem stands_spelled (hrun : run ≤ 2) (cs : List Char) :
    Stands '"' isPlain basicPiece run (spelled true run cs) cs := by
  induction cs generalizing run with
  | nil => exact .nil
  | cons c cs ih =>
    by_cases hc : c = '"'
    · subst hc
      by_cases hless : run < 2
      · have hw : spelled true run ('"' :: cs) = '"' :: spelled true (run + 1) cs := by
          simp [spelled, hless]
        rw [hw]
        exact .quote hless (ih hless)
      · have hw : spelled true run ('"' :: cs) = ['\\', '"'] ++ spelled true 0 cs := by
          simp [spelled, hless]
        rw [hw]
        exact .of_escapes escapes_quote (ih (Nat.zero_le 2))
    · have htail := ih (Nat.zero_le 2)
      rw [spelled_cons hc]
      rcases escapedChar_cases true hc with ⟨heq, hplain⟩ | ⟨heq, rfl, -⟩ | hesc
      · rw [heq]
        exact .plain hplain htail
      · rw [heq]
        exact .line htail
      · exact .of_escapes hesc htail

/-! ### Without escapes -/

theorem le_longestRow (quote : Char) (run : Nat) (cs : List Char) :
    run ≤ longestRow quote run cs := by
  induction cs generalizing run with
  | nil => exact Nat.le_refl run
  | cons c cs ih =>
    rw [longestRow]
    split
    · exact Nat.le_of_succ_le (ih (run + 1))
    · exact Nat.le_max_left ..

theorem not_mem_of_longestRow (h : longestRow quote 0 cs = 0) : quote ∉ cs := by
  induction cs with
  | nil => nofun
  | cons c cs ih =>
    rw [longestRow] at h
    split at h
    · have hle := le_longestRow quote (0 + 1) cs
      omega
    · rename_i hne
      rw [List.mem_cons, not_or]
      exact ⟨Ne.symm hne, ih (by omega)⟩

/-- A character that stands for itself between single quotes. -/
def isLiteral (c : Char) : Bool := isPrintable c && c != '\''

theorem isPiece_literalPiece : IsPiece '\'' isLiteral literalPiece where
  chunk hne hw hd r := span₁_append hne hw hd r
  not_quote r := span₁_cons_of_false (show isLiteral '\'' = false by decide) r
  not_plain := List.forall_mem_cons.2 ⟨by decide, List.forall_mem_cons.2
    ⟨by decide, List.forall_mem_singleton.2 (by decide)⟩⟩
  not_break := by decide

theorem stands_literal (hrow : longestRow '\'' run cs ≤ 2)
    (hcs : ∀ c ∈ cs, needsEscape c = false) : Stands '\'' isLiteral literalPiece run cs cs := by
  induction cs generalizing run with
  | nil => exact .nil
  | cons c cs ih =>
    rw [List.forall_mem_cons] at hcs
    rw [longestRow] at hrow
    by_cases hc : c = '\''
    · subst hc
      rw [if_pos rfl] at hrow
      exact .quote (Nat.le_trans (le_longestRow ..) hrow) (ih hrow hcs.2)
    · rw [if_neg hc] at hrow
      have htail := ih (Nat.le_trans (Nat.le_max_right ..) hrow) hcs.2
      by_cases hfeed : c = '\n'
      · subst hfeed
        exact .line htail
      · exact .plain (by simp [isLiteral, isPrintable_of_needsEscape hcs.1 hfeed, hc]) htail

/-! ## Any string -/

theorem Quotes.of_single (h : ofText cs = single) :
    cs ≠ [] ∧ ∀ c ∈ cs, isPrintable c = true ∧ c ≠ '\'' := by
  have hne : cs ≠ [] := by
    rintro rfl
    exact absurd h (by decide)
  refine ⟨hne, fun c hc => ?_⟩
  simp only [ofText] at h
  split_ifs at h with _ hsingle
  simp only [Bool.and_eq_true, Bool.not_eq_true', List.any_eq_false, decide_eq_true_eq] at hsingle
  obtain ⟨⟨hplain, hrow⟩, hlines⟩ := hsingle
  refine ⟨isPrintable_of_needsEscape (by simpa using hplain c hc) (hlines c hc), ?_⟩
  rintro rfl
  exact not_mem_of_longestRow hrow hc

theorem Quotes.of_tripleSingle (h : ofText cs = tripleSingle) :
    longestRow '\'' 0 cs ≤ 2 ∧ ∀ c ∈ cs, needsEscape c = false := by
  simp only [ofText] at h
  split_ifs at h with _ _ _ htriple
  simp only [Bool.and_eq_true, Bool.not_eq_true', List.any_eq_false, decide_eq_true_eq] at htriple
  exact ⟨htriple.2, fun c hc => by simpa using htriple.1 c hc⟩

/-- **Strings are read as they were written.** -/
theorem text_printString (s : String) (r : List Char) :
    text (printString s ++ '\n' :: r) = some (s, '\n' :: r) := by
  have hs : String.ofList s.toList = s := String.ofList_toList
  have hsingle (w : List Char) : tripleString '"' basicPiece ('\'' :: w) = none ∧
      basicString ('\'' :: w) = none := by
    constructor
    · simp [tripleString]
    · simp [basicString]
  cases hq : Quotes.ofText s.toList with
  | double =>
    have hw : printString s ++ '\n' :: r =
        '"' :: spelled false 0 s.toList ++ '"' :: '\n' :: r := by simp [printString, hq]
    have htriple := tripleString_spelled basicPiece s.toList (show '\n' ≠ '"' by decide) r
    rw [hw, text, orElse_apply, htriple, Option.none_or, orElse_apply, basicString_spelled,
      Option.some_or, hs]
  | single =>
    obtain ⟨hne, hcs⟩ := Quotes.of_single hq
    have hw : printString s ++ '\n' :: r = '\'' :: s.toList ++ '\'' :: '\n' :: r := by
      simp [printString, hq]
    have htriple : tripleString '\'' literalPiece
        ('\'' :: s.toList ++ '\'' :: '\n' :: r) = none := by
      obtain ⟨c, cs, hcons⟩ := List.exists_cons_of_ne_nil hne
      have hc : c ≠ '\'' := (hcs c (by simp [hcons])).2
      simp [tripleString, hcons, hc]
    rw [hw, text, orElse_apply, List.cons_append, (hsingle _).1, Option.none_or, orElse_apply,
      (hsingle _).2, Option.none_or, ← List.cons_append, orElse_apply, htriple, Option.none_or,
      literalString_append hcs, hs]
  | tripleDouble =>
    have hread := tripleString_of_stands isPiece_basicPiece
      (stands_spelled (Nat.zero_le 2) s.toList) (show '\n' ≠ '"' by decide) r
    have hw : printString s ++ '\n' :: r = '"' :: '"' :: '"' ::
        ((if s.toList.any (· = '\n') then ['\n'] else []) ++
          (spelled true 0 s.toList ++ '"' :: '"' :: '"' :: '\n' :: r)) := by
      simp only [printString, hq, List.append_assoc]
      rfl
    rw [hw, text, orElse_apply, hread, Option.some_or, hs]
  | tripleSingle =>
    obtain ⟨hrow, hcs⟩ := Quotes.of_tripleSingle hq
    have hread := tripleString_of_stands isPiece_literalPiece (stands_literal hrow hcs)
      (show '\n' ≠ '\'' by decide) r
    have hw : printString s ++ '\n' :: r = '\'' :: '\'' :: '\'' ::
        ((if s.toList.any (· = '\n') then ['\n'] else []) ++
          (s.toList ++ '\'' :: '\'' :: '\'' :: '\n' :: r)) := by
      simp only [printString, hq, List.append_assoc]
      rfl
    rw [hw, text, orElse_apply, (hsingle _).1, Option.none_or, orElse_apply, (hsingle _).2,
      Option.none_or, orElse_apply, hread, Option.some_or, hs]

end SealedChat.Toml
