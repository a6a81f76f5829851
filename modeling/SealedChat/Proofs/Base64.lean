import SealedChat.Base64
import SealedChat.Text.Blank
import SealedChat.Proofs.Text.Utf8
import Mathlib.Logic.Function.Basic

/-!
# Base64 is exact

Every byte string has one Base64 text, and only that text is read as it.
-/

namespace SealedChat.Base64

/-! ## Digits -/

theorem digit?_digitChar {d : Nat} (h : d < 64) : digit? (digitChar d) = some d := by
  revert d
  decide

theorem digitChar_ne_pad {d : Nat} (h : d < 64) : digitChar d ≠ '=' := by
  revert d
  decide

theorem digitChar_of_digit? {c : Char} {d : Nat} (h : digit? c = some d) :
    d < 64 ∧ digitChar d = c := by
  have hc : Char.ofNat c.toNat = c := Char.ofNat_toNat c
  simp only [digit?] at h
  split_ifs at h with h1 h2 h3 h4 h5
  · cases h
    refine ⟨by omega, ?_⟩
    rw [digitChar, if_pos (by omega), show 65 + (c.toNat - 65) = c.toNat by omega, hc]
  · cases h
    refine ⟨by omega, ?_⟩
    rw [digitChar, if_neg (by omega), if_pos (by omega),
      show 71 + (c.toNat - 71) = c.toNat by omega, hc]
  · cases h
    refine ⟨by omega, ?_⟩
    rw [digitChar, if_neg (by omega), if_neg (by omega), if_pos (by omega),
      show c.toNat + 4 - 4 = c.toNat by omega, hc]
  · cases h
    exact ⟨by decide, h4.symm⟩
  · cases h
    exact ⟨by decide, h5.symm⟩

/-! ## Groups of digits -/

section

variable {x y z w : Nat} (hx : x < 64) (hy : y < 64) (hz : z < 64) (hw : w < 64)

include hx hy

theorem decodeChars?_one :
    decodeChars? [digitChar x, digitChar y, '=', '='] =
      if y % 16 = 0 then some [UInt8.ofNat (x * 4 + y / 16)] else none := by
  simp [decodeChars?, digit?_digitChar, hx, hy]

include hz

theorem decodeChars?_two :
    decodeChars? [digitChar x, digitChar y, digitChar z, '='] =
      if z % 4 = 0 then
        some [UInt8.ofNat (x * 4 + y / 16), UInt8.ofNat (y % 16 * 16 + z / 4)]
      else none := by
  rw [decodeChars?.eq_3 _ _ _ fun h => digitChar_ne_pad hz h]
  simp [digit?_digitChar, hx, hy, hz]

include hw

theorem decodeChars?_group (cs : List Char) :
    decodeChars? (digitChar x :: digitChar y :: digitChar z :: digitChar w :: cs) =
      (decodeChars? cs).map fun r =>
        UInt8.ofNat (x * 4 + y / 16) :: UInt8.ofNat (y % 16 * 16 + z / 4) ::
          UInt8.ofNat (z % 4 * 64 + w) :: r := by
  rw [decodeChars?.eq_4 _ _ _ _ _ (fun _ h _ => digitChar_ne_pad hw h)
    fun h _ => digitChar_ne_pad hw h]
  simp only [digit?_digitChar, hx, hy, hz, hw, Option.bind_eq_bind, Option.bind_some]
  cases decodeChars? cs <;> rfl

end

/-! ## Both directions -/

theorem ofNat_eq {n : Nat} {a : UInt8} (h : n = a.toNat) : UInt8.ofNat n = a := by
  rw [h, UInt8.ofNat_toNat]

@[simp] theorem decodeChars?_encodeChars (b : Bytes) : decodeChars? (encodeChars b) = some b := by
  induction b using encodeChars.induct with
  | case1 => rfl
  | case2 a =>
    have := a.toNat_lt
    rw [encodeChars, decodeChars?_one (by omega) (by omega), if_pos (by omega),
      ofNat_eq (a := a) (by omega)]
  | case3 a b =>
    have := a.toNat_lt
    have := b.toNat_lt
    rw [encodeChars, decodeChars?_two (by omega) (by omega) (by omega), if_pos (by omega),
      ofNat_eq (a := a) (by omega), ofNat_eq (a := b) (by omega)]
  | case4 a b c r ih =>
    have := a.toNat_lt
    have := b.toNat_lt
    have := c.toNat_lt
    rw [encodeChars, decodeChars?_group (by omega) (by omega) (by omega) (by omega), ih,
      Option.map_some, ofNat_eq (a := a) (by omega), ofNat_eq (a := b) (by omega),
      ofNat_eq (a := c) (by omega)]

theorem eq_encodeChars {cs : List Char} {b : Bytes} (h : decodeChars? cs = some b) :
    cs = encodeChars b := by
  induction cs using decodeChars?.induct generalizing b with
  | case1 =>
    cases h
    rfl
  | case2 a b' =>
    simp only [decodeChars?, Option.bind_eq_bind, Option.bind_eq_some_iff] at h
    obtain ⟨x, hx, y, hy, h⟩ := h
    obtain ⟨hx, rfl⟩ := digitChar_of_digit? hx
    obtain ⟨hy, rfl⟩ := digitChar_of_digit? hy
    split_ifs at h with hz
    cases h
    rw [encodeChars, Utf8.toNat_ofNat (by omega), show (x * 4 + y / 16) / 4 = x by omega,
      show (x * 4 + y / 16) % 4 * 16 = y by omega]
  | case3 a b' c hc =>
    rw [decodeChars?.eq_3 _ _ _ hc] at h
    simp only [Option.bind_eq_bind, Option.bind_eq_some_iff] at h
    obtain ⟨x, hx, y, hy, z, hz, h⟩ := h
    obtain ⟨hx, rfl⟩ := digitChar_of_digit? hx
    obtain ⟨hy, rfl⟩ := digitChar_of_digit? hy
    obtain ⟨hz, rfl⟩ := digitChar_of_digit? hz
    split_ifs at h with hw
    cases h
    rw [encodeChars, Utf8.toNat_ofNat (by omega), Utf8.toNat_ofNat (by omega),
      show (x * 4 + y / 16) / 4 = x by omega,
      show (x * 4 + y / 16) % 4 * 16 + (y % 16 * 16 + z / 4) / 16 = y by omega,
      show (y % 16 * 16 + z / 4) % 16 * 4 = z by omega]
  | case4 a b' c d r h1 h2 ih =>
    rw [decodeChars?.eq_4 _ _ _ _ _ h1 h2] at h
    simp only [Option.bind_eq_bind, Option.bind_eq_some_iff] at h
    obtain ⟨x, hx, y, hy, z, hz, w, hw, rest, hr, h⟩ := h
    obtain ⟨hx, rfl⟩ := digitChar_of_digit? hx
    obtain ⟨hy, rfl⟩ := digitChar_of_digit? hy
    obtain ⟨hz, rfl⟩ := digitChar_of_digit? hz
    obtain ⟨hw, rfl⟩ := digitChar_of_digit? hw
    cases h
    rw [encodeChars, ih hr, Utf8.toNat_ofNat (by omega), Utf8.toNat_ofNat (by omega),
      Utf8.toNat_ofNat (by omega), show (x * 4 + y / 16) / 4 = x by omega,
      show (x * 4 + y / 16) % 4 * 16 + (y % 16 * 16 + z / 4) / 16 = y by omega,
      show (y % 16 * 16 + z / 4) % 16 * 4 + (z % 4 * 64 + w) / 64 = z by omega,
      show (z % 4 * 64 + w) % 64 = w by omega]
  | case5 cs h1 h2 h3 h4 =>
    rw [decodeChars?.eq_5 _ h1 h2 h3 h4] at h
    cases h

/-- **The code is exact**: a text is read as a byte string just when it is the text of it. -/
theorem decodeChars?_eq_some_iff {cs : List Char} {b : Bytes} :
    decodeChars? cs = some b ↔ cs = encodeChars b :=
  ⟨eq_encodeChars, fun h => h ▸ decodeChars?_encodeChars b⟩

@[simp] theorem decodeText?_encode (b : Bytes) : decodeText? (encode b) = some b := by
  simp [decodeText?, encode]

theorem decodeText?_eq_some_iff {s : String} {b : Bytes} :
    decodeText? s = some b ↔ s = encode b := by
  rw [decodeText?, decodeChars?_eq_some_iff, encode, ← String.toList_inj, String.toList_ofList]

theorem encode_injective : Function.Injective encode := fun a b h =>
  Option.some_injective _ (by rw [← decodeText?_encode a, h, decodeText?_encode])

/-! ## Characters -/

/-- The characters that a Base64 text consists of. -/
def IsSymbol (c : Char) : Prop := c = '=' ∨ ∃ d < 64, c = digitChar d

theorem isSymbol_of_mem {b : Bytes} {c : Char} (h : c ∈ encodeChars b) : IsSymbol c := by
  have digit : ∀ d, d < 64 → IsSymbol (digitChar d) := fun d hd => .inr ⟨d, hd, rfl⟩
  induction b using encodeChars.induct with
  | case1 => simp [encodeChars] at h
  | case2 a =>
    have := a.toNat_lt
    simp only [encodeChars, List.mem_cons, List.not_mem_nil, or_false] at h
    rcases h with rfl | rfl | rfl | rfl
    · exact digit _ (by omega)
    · exact digit _ (by omega)
    · exact .inl rfl
    · exact .inl rfl
  | case3 a b =>
    have := a.toNat_lt
    have := b.toNat_lt
    simp only [encodeChars, List.mem_cons, List.not_mem_nil, or_false] at h
    rcases h with rfl | rfl | rfl | rfl
    · exact digit _ (by omega)
    · exact digit _ (by omega)
    · exact digit _ (by omega)
    · exact .inl rfl
  | case4 a b c' r ih =>
    have := a.toNat_lt
    have := b.toNat_lt
    have := c'.toNat_lt
    simp only [encodeChars, List.mem_cons] at h
    rcases h with rfl | rfl | rfl | rfl | h
    · exact digit _ (by omega)
    · exact digit _ (by omega)
    · exact digit _ (by omega)
    · exact digit _ (by omega)
    · exact ih h

theorem IsSymbol.elim {P : Char → Prop} (hp : P '=') (hd : ∀ d < 64, P (digitChar d)) {c : Char}
    (hc : IsSymbol c) : P c := by
  rcases hc with rfl | ⟨d, h, rfl⟩
  · exact hp
  · exact hd d h

theorem IsSymbol.toNat_lt {c : Char} (hc : IsSymbol c) : c.toNat < 128 :=
  hc.elim (P := fun c => c.toNat < 128) (by decide) (by decide)

theorem IsSymbol.not_isBlank {c : Char} (hc : IsSymbol c) : ¬isBlank c :=
  hc.elim (P := fun c => ¬isBlank c) (by decide) (by decide)

theorem length_encodeChars (b : Bytes) : (encodeChars b).length = 4 * ((b.length + 2) / 3) := by
  induction b using encodeChars.induct with
  | case1 => rfl
  | case2 => simp [encodeChars]
  | case3 => simp [encodeChars]
  | case4 a b c r ih =>
    simp only [encodeChars, List.length_cons, ih]
    omega

theorem size_encode (b : Bytes) : Utf8.size (encode b) = 4 * ((b.length + 2) / 3) := by
  rw [Utf8.size, Utf8.encode, encode, String.toList_ofList,
    Utf8.length_encodeChars_of_ascii fun c hc => (isSymbol_of_mem hc).toNat_lt,
    length_encodeChars]

/-! ## Lines of bytes -/

theorem toNat_toUInt8 {c : Char} (h : c.toNat < 256) : c.toUInt8.toNat = c.toNat := by
  rw [Char.toUInt8, UInt32.toNat_toUInt8, Char.toNat_val, Nat.mod_eq_of_lt h]

theorem ofUInt8_toUInt8 {c : Char} (h : c.toNat < 256) : Char.ofUInt8 c.toUInt8 = c := by
  apply Char.ext
  apply UInt32.toNat_inj.1
  change c.toUInt8.toUInt32.toNat = c.val.toNat
  rw [UInt8.toNat_toUInt32, toNat_toUInt8 h, Char.toNat_val]

theorem toUInt8_ofUInt8 (b : UInt8) : (Char.ofUInt8 b).toUInt8 = b := by
  change b.toUInt32.toUInt8 = b
  exact UInt8.toUInt8_toUInt32 b

theorem decode?_eq_some_iff {line b : Bytes} : decode? line = some b ↔ line = encodeLine b := by
  rw [decode?, decodeChars?_eq_some_iff, encodeLine]
  constructor
  · intro h
    rw [← h, List.map_map]
    conv_lhs => rw [← List.map_id line]
    exact List.map_congr_left fun x _ => (toUInt8_ofUInt8 x).symm
  · rintro rfl
    rw [List.map_map]
    conv_rhs => rw [← List.map_id (encodeChars b)]
    exact List.map_congr_left fun c hc =>
      ofUInt8_toUInt8 (Nat.lt_trans (isSymbol_of_mem hc).toNat_lt (by decide))

@[simp] theorem decode?_encodeLine (b : Bytes) : decode? (encodeLine b) = some b :=
  decode?_eq_some_iff.2 rfl

theorem encodeLine_injective : Function.Injective encodeLine := by
  intro b b' h
  exact Option.some.inj (by rw [← decode?_encodeLine b, h, decode?_encodeLine])

theorem length_encodeLine (b : Bytes) : (encodeLine b).length = 4 * ((b.length + 2) / 3) := by
  rw [encodeLine, List.length_map, length_encodeChars]

theorem exists_isSymbol_of_mem {b : Bytes} {x : UInt8} (h : x ∈ encodeLine b) :
    ∃ c, IsSymbol c ∧ x = c.toUInt8 := by
  obtain ⟨c, hc, rfl⟩ := List.mem_map.1 h
  exact ⟨c, isSymbol_of_mem hc, rfl⟩

/-- A Base64 line is a line of ASCII. -/
theorem lt_of_mem_encodeLine {b : Bytes} {x : UInt8} (h : x ∈ encodeLine b) : x < 128 := by
  obtain ⟨c, hc, rfl⟩ := exists_isSymbol_of_mem h
  exact hc.elim (P := fun c => c.toUInt8 < 128) (by decide) (by decide)

/-- A Base64 line holds nothing that a line could end with. -/
theorem ne_of_mem_encodeLine {b : Bytes} {x : UInt8} (h : x ∈ encodeLine b) : x ≠ 10 ∧ x ≠ 13 := by
  obtain ⟨c, hc, rfl⟩ := exists_isSymbol_of_mem h
  exact hc.elim (P := fun c => c.toUInt8 ≠ 10 ∧ c.toUInt8 ≠ 13) (by decide) (by decide)

theorem isValid_encodeLine (b : Bytes) : Utf8.isValid (encodeLine b) :=
  Utf8.isValid_of_ascii fun _ hx => lt_of_mem_encodeLine hx

end SealedChat.Base64
