import SealedChat.Text.Utf8
import Mathlib.Data.List.Basic
import Mathlib.Data.Option.Basic
import Mathlib.Tactic.SplitIfs

/-!
# UTF-8 is exact

What is written is read back, and unbroken bytes were written: `decode? b = some s` holds just when
`b = encode s`. Both directions follow the reading machine byte by byte, along the four lengths that
a character can have.
-/

namespace SealedChat.Utf8

variable {v value owed low high : Nat} {r : Bytes}

theorem toNat_ofNat (h : v < 256) : (UInt8.ofNat v).toNat = v := by
  simp [Nat.mod_eq_of_lt h]

/-! ## Single steps of the machine -/

/-- A byte between two characters. -/
theorem piecesFrom_none_cons (b : UInt8) (r : Bytes) :
    piecesFrom none (b :: r) =
      match lead b with
      | .char c => some c :: piecesFrom none r
      | .more p => piecesFrom (some p) r
      | .broken => none :: piecesFrom none r := rfl

/-- A byte inside a character. -/
theorem piecesFrom_some_cons (p : Partial) (b : UInt8) (r : Bytes) :
    piecesFrom (some p) (b :: r) =
      if p.low ≤ b.toNat ∧ b.toNat ≤ p.high then
        if p.owed = 1 then
          some (Char.ofNat (p.value * 64 + (b.toNat - 0x80))) :: piecesFrom none r
        else piecesFrom (some ⟨p.value * 64 + (b.toNat - 0x80), p.owed - 1, 0x80, 0xBF⟩) r
      else none :: piecesFrom none (b :: r) := rfl

theorem piecesFrom_last (hl : low ≤ v) (hh : v ≤ high) (hv : v < 256) :
    piecesFrom (some ⟨value, 1, low, high⟩) (UInt8.ofNat v :: r) =
      some (Char.ofNat (value * 64 + (v - 0x80))) :: piecesFrom none r := by
  rw [piecesFrom_some_cons, toNat_ofNat hv, if_pos ⟨hl, hh⟩, if_pos rfl]

theorem piecesFrom_next (hl : low ≤ v) (hh : v ≤ high) (hv : v < 256) :
    piecesFrom (some ⟨value, owed + 2, low, high⟩) (UInt8.ofNat v :: r) =
      piecesFrom (some ⟨value * 64 + (v - 0x80), owed + 1, 0x80, 0xBF⟩) r := by
  rw [piecesFrom_some_cons, toNat_ofNat hv, if_pos ⟨hl, hh⟩, if_neg (by simp)]
  rfl

theorem piecesFrom_one (h : v < 0x80) :
    piecesFrom none (UInt8.ofNat v :: r) = some (Char.ofNat v) :: piecesFrom none r := by
  rw [piecesFrom_none_cons]
  simp only [lead]
  rw [toNat_ofNat (by omega), if_pos h]

theorem piecesFrom_two (h : 0xC2 ≤ v) (h' : v < 0xE0) :
    piecesFrom none (UInt8.ofNat v :: r) = piecesFrom (some ⟨v - 0xC0, 1, 0x80, 0xBF⟩) r := by
  rw [piecesFrom_none_cons]
  simp only [lead]
  rw [toNat_ofNat (by omega), if_neg (by omega), if_neg (by omega), if_pos h']

theorem piecesFrom_three (h : 0xE0 ≤ v) (h' : v < 0xF0) :
    piecesFrom none (UInt8.ofNat v :: r) =
      piecesFrom (some ⟨v - 0xE0, 2, if v = 0xE0 then 0xA0 else 0x80,
        if v = 0xED then 0x9F else 0xBF⟩) r := by
  rw [piecesFrom_none_cons]
  simp only [lead]
  rw [toNat_ofNat (by omega), if_neg (by omega), if_neg (by omega), if_neg (by omega), if_pos h']

theorem piecesFrom_four (h : 0xF0 ≤ v) (h' : v < 0xF5) :
    piecesFrom none (UInt8.ofNat v :: r) =
      piecesFrom (some ⟨v - 0xF0, 3, if v = 0xF0 then 0x90 else 0x80,
        if v = 0xF4 then 0x8F else 0xBF⟩) r := by
  rw [piecesFrom_none_cons]
  simp only [lead]
  rw [toNat_ofNat (by omega), if_neg (by omega), if_neg (by omega), if_neg (by omega),
    if_neg (by omega), if_pos h']

theorem piecesFrom_broken (h : 0x80 ≤ v ∧ v < 0xC2 ∨ 0xF5 ≤ v ∧ v < 256) :
    piecesFrom none (UInt8.ofNat v :: r) = none :: piecesFrom none r := by
  rw [piecesFrom_none_cons]
  simp only [lead]
  rw [toNat_ofNat (by omega), if_neg (by omega)]
  rcases h with h | h
  · rw [if_pos h.2]
  · rw [if_neg (by omega), if_neg (by omega), if_neg (by omega), if_neg (by omega)]

/-! ## Written characters are read back -/

theorem piecesFrom_encodeChar_append (c : Char) (r : Bytes) :
    piecesFrom none (encodeChar c ++ r) = some c :: piecesFrom none r := by
  have hc : c.toNat < 0xD800 ∨ 0xDFFF < c.toNat ∧ c.toNat < 0x110000 := c.valid
  have hback : Char.ofNat c.toNat = c := Char.ofNat_toNat c
  unfold encodeChar
  generalize c.toNat = v at *
  dsimp only
  split_ifs with h1 h2 h3 <;> simp only [List.cons_append, List.nil_append]
  · rw [piecesFrom_one h1, hback]
  · rw [piecesFrom_two (by omega) (by omega), piecesFrom_last (by omega) (by omega) (by omega),
      show (192 + v / 64 - 192) * 64 + (128 + v % 64 - 128) = v by omega, hback]
  · rw [piecesFrom_three (by omega) (by omega),
      piecesFrom_next (by split_ifs <;> omega) (by split_ifs <;> omega) (by omega),
      piecesFrom_last (by omega) (by omega) (by omega),
      show ((224 + v / 4096 - 224) * 64 + (128 + v / 64 % 64 - 128)) * 64 +
        (128 + v % 64 - 128) = v by omega, hback]
  · rw [piecesFrom_four (by omega) (by omega),
      piecesFrom_next (by split_ifs <;> omega) (by split_ifs <;> omega) (by omega),
      piecesFrom_next (by omega) (by omega) (by omega),
      piecesFrom_last (by omega) (by omega) (by omega),
      show (((240 + v / 262144 - 240) * 64 + (128 + v / 4096 % 64 - 128)) * 64 +
        (128 + v / 64 % 64 - 128)) * 64 + (128 + v % 64 - 128) = v by omega, hback]

theorem pieces_encodeChars (cs : List Char) : pieces (encodeChars cs) = cs.map some := by
  induction cs with
  | nil => rfl
  | cons c cs ih =>
    rw [encodeChars, List.flatMap_cons, pieces, piecesFrom_encodeChar_append, List.map_cons, ← ih]
    rfl

/-! ## Unbroken text was written -/

/-- A character that has begun is finished by the bytes that follow, if nothing is broken. -/
theorem exists_next {p : Partial} {b : Bytes} (h : (piecesFrom (some p) b).all Option.isSome) :
    ∃ v r, b = UInt8.ofNat v :: r ∧ v < 256 ∧ p.low ≤ v ∧ v ≤ p.high := by
  cases b with
  | nil => cases h
  | cons b r =>
    refine ⟨b.toNat, r, by simp, b.toNat_lt, ?_⟩
    rw [piecesFrom_some_cons] at h
    split_ifs at h with hb
    · exact hb
    · exact hb
    · simp at h

theorem encodeChar_ofNat {w : Nat} (h : w < 0xD800 ∨ 0xDFFF < w ∧ w < 0x110000) :
    encodeChar (Char.ofNat w) =
      if w < 0x80 then [UInt8.ofNat w]
      else if w < 0x800 then [UInt8.ofNat (0xC0 + w / 64), UInt8.ofNat (0x80 + w % 64)]
      else if w < 0x10000 then
        [UInt8.ofNat (0xE0 + w / 4096), UInt8.ofNat (0x80 + w / 64 % 64), UInt8.ofNat (0x80 + w % 64)]
      else
        [UInt8.ofNat (0xF0 + w / 262144), UInt8.ofNat (0x80 + w / 4096 % 64),
          UInt8.ofNat (0x80 + w / 64 % 64), UInt8.ofNat (0x80 + w % 64)] := by
  have hw : (Char.ofNat w).toNat = w := by
    rw [Char.ofNat, dif_pos h]
    rfl
  rw [encodeChar, hw]

theorem encodeChar_one (h : v < 0x80) : encodeChar (Char.ofNat v) = [UInt8.ofNat v] := by
  rw [encodeChar_ofNat (by omega), if_pos h]

theorem encodeChar_two {u : Nat} (hv : 0xC2 ≤ v) (hv' : v < 0xE0) (hu : 0x80 ≤ u) (hu' : u ≤ 0xBF) :
    encodeChar (Char.ofNat ((v - 0xC0) * 64 + (u - 0x80))) = [UInt8.ofNat v, UInt8.ofNat u] := by
  rw [encodeChar_ofNat (by omega), if_neg (by omega), if_pos (by omega),
    show 0xC0 + ((v - 0xC0) * 64 + (u - 0x80)) / 64 = v by omega,
    show 0x80 + ((v - 0xC0) * 64 + (u - 0x80)) % 64 = u by omega]

theorem encodeChar_three {u t : Nat} (hv : 0xE0 ≤ v) (hv' : v < 0xF0)
    (hu : (if v = 0xE0 then 0xA0 else 0x80) ≤ u) (hu' : u ≤ if v = 0xED then 0x9F else 0xBF)
    (ht : 0x80 ≤ t) (ht' : t ≤ 0xBF) :
    encodeChar (Char.ofNat (((v - 0xE0) * 64 + (u - 0x80)) * 64 + (t - 0x80))) =
      [UInt8.ofNat v, UInt8.ofNat u, UInt8.ofNat t] := by
  have hlow : v = 0xE0 → 0xA0 ≤ u := fun h => by rwa [if_pos h] at hu
  have hhigh : v = 0xED → u ≤ 0x9F := fun h => by rwa [if_pos h] at hu'
  have hu2 : 0x80 ≤ u ∧ u ≤ 0xBF := by split_ifs at hu hu' <;> omega
  generalize hw : ((v - 0xE0) * 64 + (u - 0x80)) * 64 + (t - 0x80) = w
  rw [encodeChar_ofNat (by omega), if_neg (by omega), if_neg (by omega), if_pos (by omega),
    show 0xE0 + w / 4096 = v by omega, show 0x80 + w / 64 % 64 = u by omega,
    show 0x80 + w % 64 = t by omega]

theorem encodeChar_four {u t s : Nat} (hv : 0xF0 ≤ v) (hv' : v < 0xF5)
    (hu : (if v = 0xF0 then 0x90 else 0x80) ≤ u) (hu' : u ≤ if v = 0xF4 then 0x8F else 0xBF)
    (ht : 0x80 ≤ t) (ht' : t ≤ 0xBF) (hs : 0x80 ≤ s) (hs' : s ≤ 0xBF) :
    encodeChar (Char.ofNat ((((v - 0xF0) * 64 + (u - 0x80)) * 64 + (t - 0x80)) * 64 + (s - 0x80))) =
      [UInt8.ofNat v, UInt8.ofNat u, UInt8.ofNat t, UInt8.ofNat s] := by
  have hlow : v = 0xF0 → 0x90 ≤ u := fun h => by rwa [if_pos h] at hu
  have hhigh : v = 0xF4 → u ≤ 0x8F := fun h => by rwa [if_pos h] at hu'
  have hu2 : 0x80 ≤ u ∧ u ≤ 0xBF := by split_ifs at hu hu' <;> omega
  generalize hw : (((v - 0xF0) * 64 + (u - 0x80)) * 64 + (t - 0x80)) * 64 + (s - 0x80) = w
  rw [encodeChar_ofNat (by omega), if_neg (by omega), if_neg (by omega), if_neg (by omega),
    show 0xF0 + w / 262144 = v by omega, show 0x80 + w / 4096 % 64 = u by omega,
    show 0x80 + w / 64 % 64 = t by omega, show 0x80 + w % 64 = s by omega]

theorem length_encodeChar_pos (c : Char) : 0 < (encodeChar c).length := by
  simp only [encodeChar]
  split_ifs <;> simp

@[simp] theorem encodeChars_nil : encodeChars [] = [] := rfl

@[simp] theorem encodeChars_cons (c : Char) (cs : List Char) :
    encodeChars (c :: cs) = encodeChar c ++ encodeChars cs := rfl

/-- Unbroken bytes start with a character, and go on unbroken behind it. -/
theorem exists_encodeChar_append {b : UInt8} {r : Bytes}
    (h : (piecesFrom none (b :: r)).all Option.isSome) :
    ∃ c r', b :: r = encodeChar c ++ r' ∧ (piecesFrom none r').all Option.isSome := by
  obtain ⟨v, hv, rfl⟩ : ∃ v < 256, b = UInt8.ofNat v := ⟨b.toNat, b.toNat_lt, by simp⟩
  by_cases h1 : v < 0x80
  · rw [piecesFrom_one h1] at h
    exact ⟨Char.ofNat v, r, by rw [encodeChar_one h1]; rfl, by simpa using h⟩
  by_cases h2 : v < 0xC2
  · rw [piecesFrom_broken (by omega)] at h
    simp at h
  by_cases h3 : v < 0xE0
  · rw [piecesFrom_two (by omega) h3] at h
    obtain ⟨u, r, rfl, hu, hl, hh⟩ := exists_next h
    rw [piecesFrom_last hl hh hu] at h
    exact ⟨_, r, by rw [encodeChar_two (by omega) h3 hl hh]; rfl, by simpa using h⟩
  by_cases h4 : v < 0xF0
  · rw [piecesFrom_three (by omega) h4] at h
    obtain ⟨u, r, rfl, hu, hl, hh⟩ := exists_next h
    rw [piecesFrom_next hl hh hu] at h
    obtain ⟨t, r, rfl, ht, hl', hh'⟩ := exists_next h
    rw [piecesFrom_last hl' hh' ht] at h
    exact ⟨_, r, by rw [encodeChar_three (by omega) h4 hl hh hl' hh']; rfl, by simpa using h⟩
  by_cases h5 : v < 0xF5
  · rw [piecesFrom_four (by omega) h5] at h
    obtain ⟨u, r, rfl, hu, hl, hh⟩ := exists_next h
    rw [piecesFrom_next hl hh hu] at h
    obtain ⟨t, r, rfl, ht, hl', hh'⟩ := exists_next h
    rw [piecesFrom_next hl' hh' ht] at h
    obtain ⟨s, r, rfl, hs, hl'', hh''⟩ := exists_next h
    rw [piecesFrom_last hl'' hh'' hs] at h
    exact ⟨_, r, by rw [encodeChar_four (by omega) h5 hl hh hl' hh' hl'' hh'']; rfl, by simpa using h⟩
  · rw [piecesFrom_broken (by omega)] at h
    simp at h

theorem exists_encodeChars {b : Bytes} (h : isValid b) : ∃ cs, b = encodeChars cs := by
  unfold isValid pieces at h
  induction hn : b.length using Nat.strongRecOn generalizing b with
  | ind n ih =>
    cases b with
    | nil => exact ⟨[], rfl⟩
    | cons x r =>
      obtain ⟨c, r', hr, h'⟩ := exists_encodeChar_append h
      have hlt : r'.length < n := by
        rw [← hn, hr, List.length_append]
        have := length_encodeChar_pos c
        omega
      obtain ⟨cs, rfl⟩ := ih _ hlt h' rfl
      exact ⟨c :: cs, by rw [hr, encodeChars_cons]⟩

theorem mapM_id_eq_some_iff {l : List (Option Char)} {cs : List Char} :
    l.mapM id = some cs ↔ l = cs.map some := by
  induction l generalizing cs with
  | nil => cases cs <;> simp
  | cons a l ih =>
    cases a with
    | none => cases cs <;> simp
    | some c => cases cs <;> simp [Option.bind_eq_some_iff, ih, and_comm]

/-! ## The code is exact -/

theorem decodeChars?_eq_some_iff {b : Bytes} {cs : List Char} :
    decodeChars? b = some cs ↔ b = encodeChars cs := by
  rw [decodeChars?, mapM_id_eq_some_iff]
  constructor
  · intro h
    obtain ⟨ds, rfl⟩ := exists_encodeChars (b := b) (by simp [isValid, h])
    rw [pieces_encodeChars] at h
    rw [List.map_injective_iff.2 (Option.some_injective _) h]
  · rintro rfl
    exact pieces_encodeChars cs

/-- **Reading undoes writing**, and nothing else is read. -/
theorem decode?_eq_some_iff {b : Bytes} {s : String} : decode? b = some s ↔ b = encode s := by
  rw [decode?, Option.map_eq_some_iff, encode]
  constructor
  · rintro ⟨cs, h, rfl⟩
    rw [decodeChars?_eq_some_iff.1 h, String.toList_ofList]
  · rintro rfl
    exact ⟨s.toList, decodeChars?_eq_some_iff.2 rfl, String.ofList_toList⟩

@[simp] theorem decode?_encode (s : String) : decode? (encode s) = some s :=
  decode?_eq_some_iff.2 rfl

/-- Nothing is lost of what is text. -/
@[simp] theorem decodeLossy_encode (s : String) : decodeLossy (encode s) = s := by
  rw [decodeLossy, encode, pieces_encodeChars, List.map_map]
  simp [Function.comp_def]

theorem encode_injective : Function.Injective encode := fun s t h =>
  Option.some_injective _ (by rw [← decode?_encode s, h, decode?_encode])

theorem isValid_iff {b : Bytes} : isValid b = true ↔ ∃ s, b = encode s := by
  constructor
  · intro h
    obtain ⟨cs, rfl⟩ := exists_encodeChars h
    exact ⟨String.ofList cs, by rw [encode, String.toList_ofList]⟩
  · rintro ⟨s, rfl⟩
    simp [isValid, encode, pieces_encodeChars]

theorem encode_append (s t : String) : encode (s ++ t) = encode s ++ encode t := by
  simp [encode, encodeChars]

theorem isValid_append {a b : Bytes} (ha : isValid a) (hb : isValid b) : isValid (a ++ b) := by
  obtain ⟨s, rfl⟩ := isValid_iff.1 ha
  obtain ⟨t, rfl⟩ := isValid_iff.1 hb
  exact isValid_iff.2 ⟨s ++ t, (encode_append s t).symm⟩

/-- The text of a character below 128 is one byte. -/
theorem isValid_of_ascii {b : Bytes} (h : ∀ x ∈ b, x < 128) : isValid b := by
  unfold isValid pieces
  induction b with
  | nil => rfl
  | cons x r ih =>
    have hx : x.toNat < 0x80 := UInt8.lt_iff_toNat_lt.1 (h x (by simp))
    have hr := ih fun y hy => h y (by simp [hy])
    rw [show x = UInt8.ofNat x.toNat by simp, piecesFrom_one hx]
    simpa using hr

/-! ## Characters below 128 -/

theorem encodeChar_of_ascii {c : Char} (h : c.toNat < 128) :
    encodeChar c = [UInt8.ofNat c.toNat] := by
  rw [encodeChar, if_pos h]

/-- Only a character below 128 has a byte below 128. -/
theorem ascii_of_mem_encodeChar {c : Char} {x : UInt8} (hx : x < 128) (h : x ∈ encodeChar c) :
    c.toNat < 128 ∧ x = UInt8.ofNat c.toNat := by
  have hx' : x.toNat < 128 := UInt8.lt_iff_toNat_lt.1 hx
  have high {w : Nat} (hw : 128 ≤ w) (hw' : w < 256) : x ≠ UInt8.ofNat w := by
    rintro rfl
    rw [toNat_ofNat hw'] at hx'
    omega
  have hc : c.toNat < 0xD800 ∨ 0xDFFF < c.toNat ∧ c.toNat < 0x110000 := c.valid
  simp only [encodeChar] at h
  split_ifs at h with h₁ h₂ h₃
  · exact ⟨h₁, List.mem_singleton.1 h⟩
  · simp only [List.mem_cons, List.not_mem_nil, or_false] at h
    rcases h with h | h <;> exact absurd h (high (by omega) (by omega))
  · simp only [List.mem_cons, List.not_mem_nil, or_false] at h
    rcases h with h | h | h <;> exact absurd h (high (by omega) (by omega))
  · simp only [List.mem_cons, List.not_mem_nil, or_false] at h
    rcases h with h | h | h | h <;> exact absurd h (high (by omega) (by omega))

theorem mem_encode_iff {c : Char} (hc : c.toNat < 128) {s : String} :
    UInt8.ofNat c.toNat ∈ encode s ↔ c ∈ s.toList := by
  have hx : UInt8.ofNat c.toNat < 128 := by
    rw [UInt8.lt_iff_toNat_lt, toNat_ofNat (by omega)]
    exact hc
  rw [encode, encodeChars, List.mem_flatMap]
  constructor
  · rintro ⟨d, hd, hm⟩
    obtain ⟨hd', heq⟩ := ascii_of_mem_encodeChar hx hm
    have hnat : c.toNat = d.toNat := by
      have := congrArg UInt8.toNat heq
      rwa [toNat_ofNat (by omega), toNat_ofNat (by omega)] at this
    rwa [Char.toNat_inj.1 hnat]
  · intro hm
    exact ⟨c, hm, by rw [encodeChar_of_ascii hc, List.mem_singleton]⟩

/-- A text may be cut wherever there is a byte below 128. -/
theorem exists_encodeChars_of_append {cs : List Char} {x : UInt8} (hx : x < 128) {a b : Bytes}
    (h : encodeChars cs = a ++ x :: b) :
    ∃ cs₁ cs₂, a = encodeChars cs₁ ∧ b = encodeChars cs₂ := by
  induction cs generalizing a with
  | nil => simp at h
  | cons c cs ih =>
    rw [encodeChars_cons] at h
    rcases List.append_eq_append_iff.1 h with ⟨tail, rfl, ht⟩ | ⟨tail, hc, ht⟩
    · obtain ⟨cs₁, cs₂, rfl, rfl⟩ := ih ht
      exact ⟨c :: cs₁, cs₂, (encodeChars_cons c cs₁).symm, rfl⟩
    · cases tail with
      | nil =>
        obtain ⟨cs₁, cs₂, -, rfl⟩ := ih (a := []) ht.symm
        exact ⟨[c], cs₂, by simpa using hc.symm, rfl⟩
      | cons y tail =>
        rw [List.cons_append, List.cons.injEq] at ht
        obtain ⟨rfl, rfl⟩ := ht
        have hmem : x ∈ encodeChar c := by simp [hc]
        rw [encodeChar_of_ascii (ascii_of_mem_encodeChar hx hmem).1] at hc
        cases a with
        | nil =>
          rw [List.nil_append, List.cons.injEq] at hc
          obtain ⟨-, rfl⟩ := hc
          exact ⟨[], cs, rfl, rfl⟩
        | cons z a => simp at hc

theorem isValid_of_append {a b : Bytes} {x : UInt8} (hx : x < 128)
    (h : isValid (a ++ x :: b)) : isValid a ∧ isValid b := by
  obtain ⟨s, hs⟩ := isValid_iff.1 h
  obtain ⟨cs₁, cs₂, rfl, rfl⟩ := exists_encodeChars_of_append hx hs.symm
  exact ⟨isValid_iff.2 ⟨String.ofList cs₁, by rw [encode, String.toList_ofList]⟩,
    isValid_iff.2 ⟨String.ofList cs₂, by rw [encode, String.toList_ofList]⟩⟩

/-! ## Sizes -/

theorem size_append (s t : String) : size (s ++ t) = size s + size t := by
  simp [size, encode, encodeChars]

theorem length_encodeChars_of_ascii {cs : List Char} (h : ∀ c ∈ cs, c.toNat < 128) :
    (encodeChars cs).length = cs.length := by
  induction cs with
  | nil => rfl
  | cons c cs ih =>
    have hc : encodeChar c = [UInt8.ofNat c.toNat] := encodeChar_of_ascii (h c (by simp))
    have ht := ih fun c' hm => h c' (List.mem_cons_of_mem _ hm)
    simp only [encodeChars] at ht
    simp [encodeChars, hc, ht]

end SealedChat.Utf8
