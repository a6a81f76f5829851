import Mathlib.Data.Nat.Digits.Lemmas
import SealedChat.Proofs.Channel

/-!
# The Base64 stage

What a Base64 text stands for can be said without an encoder. A text is a row of digits of the
alphabet, filled up with pads to groups of four, and the number that the digits spell is that of the
bytes, moved up by two bits for each pad (`Spells`). So the encoder has no choice
(`spells_iff`), and neither has a reader that is exact.

Which texts are read at all can be said without the bytes: there are at most two pads, at the end,
and the last digit in front of them has nothing in the bits that no byte needs (`IsText`).

Main result: `stage_exact`.
-/

namespace SealedChat.Base64

/-! ## Numbers -/

/-- The number that digits spell, the highest first. -/
def number (base : Nat) (digits : List Nat) : Nat := Nat.ofDigits base digits.reverse

@[simp] theorem number_nil (base : Nat) : number base [] = 0 := rfl

theorem number_append (base : Nat) (xs ys : List Nat) :
    number base (xs ++ ys) = number base xs * base ^ ys.length + number base ys := by
  rw [number, List.reverse_append, Nat.ofDigits_append, List.length_reverse, number, number]
  ring

theorem number_cons (base x : Nat) (xs : List Nat) :
    number base (x :: xs) = x * base ^ xs.length + number base xs := by
  have h : number base [x] = x := Nat.ofDigits_singleton
  rw [← List.singleton_append, number_append, h]

/-- Digits are known from their count and their number. -/
theorem eq_of_number_eq {base : Nat} (hb : 1 < base) {xs ys : List Nat}
    (hlength : xs.length = ys.length) (hx : ∀ x ∈ xs, x < base) (hy : ∀ y ∈ ys, y < base)
    (h : number base xs = number base ys) : xs = ys := by
  apply List.reverse_injective
  apply Nat.ofDigits_inj_of_len_eq hb (by simpa using hlength)
  · simpa using hx
  · simpa using hy
  · exact h

/-! ## Texts -/

/-- The standard alphabet, in the order of the digits. -/
def alphabet : List Char :=
  "ABCDEFGHIJKLMNOPQRSTUVWXYZabcdefghijklmnopqrstuvwxyz0123456789+/".toList

theorem alphabet_getElem? {d : Nat} (h : d < 64) : alphabet[d]? = some (digitChar d) := by
  revert d
  decide

/-- Digits and the pads behind them. -/
def spelling (digits : List Nat) (pads : Nat) : List Char :=
  digits.map digitChar ++ List.replicate pads '='

/-- The text spells the bytes. -/
def Spells (text : List Char) (b : Bytes) : Prop :=
  ∃ digits pads, text = spelling digits pads ∧ (∀ d ∈ digits, d < 64) ∧ pads ≤ 2 ∧
    3 * digits.length = 4 * b.length + pads ∧
    number 64 digits = 4 ^ pads * number 256 (b.map UInt8.toNat)

/-- The text is made of whole groups, with up to two pads at the end, and no bits are left over. -/
def IsText (text : List Char) : Prop :=
  ∃ digits pads, text = spelling digits pads ∧ (∀ d ∈ digits, d < 64) ∧ pads ≤ 2 ∧
    (digits.length + pads) % 4 = 0 ∧ ∀ d, digits.getLast? = some d → d % 4 ^ pads = 0

/-- Four digits more spell three bytes more, in front of those that are spelt. -/
theorem Spells.group {text : List Char} {r : Bytes} (h : Spells text r) (a b c : UInt8) :
    Spells (digitChar (a.toNat / 4) :: digitChar (a.toNat % 4 * 16 + b.toNat / 16) ::
      digitChar (b.toNat % 16 * 4 + c.toNat / 64) :: digitChar (c.toNat % 64) :: text)
      (a :: b :: c :: r) := by
  obtain ⟨digits, pads, htext, hdigits, hpads, hlength, hnumber⟩ := h
  have := a.toNat_lt
  have := b.toNat_lt
  have := c.toNat_lt
  let four := [a.toNat / 4, a.toNat % 4 * 16 + b.toNat / 16, b.toNat % 16 * 4 + c.toNat / 64,
    c.toNat % 64]
  have hfour : number 64 four = number 256 [a.toNat, b.toNat, c.toNat] := by
    simp only [four, number_cons, number_nil, List.length_cons, List.length_nil]
    omega
  have hpow : 64 ^ digits.length = 4 ^ pads * 256 ^ r.length := by
    calc 64 ^ digits.length = 4 ^ (3 * digits.length) := (pow_mul 4 3 digits.length).symm
      _ = 4 ^ pads * 4 ^ (4 * r.length) := by rw [hlength, pow_add, mul_comm]
      _ = 4 ^ pads * 256 ^ r.length := congrArg (4 ^ pads * ·) (pow_mul 4 4 r.length)
  refine ⟨four ++ digits, pads, by rw [htext]; rfl, ?_, hpads, ?_, ?_⟩
  · simp only [four, List.mem_append, List.mem_cons, List.not_mem_nil, or_false]
    intro d hd
    rcases hd with (rfl | rfl | rfl | rfl) | hd
    · omega
    · omega
    · omega
    · omega
    · exact hdigits d hd
  · simp only [four, List.length_append, List.length_cons, List.length_nil]
    omega
  · calc number 64 (four ++ digits)
        = number 256 [a.toNat, b.toNat, c.toNat] * (4 ^ pads * 256 ^ r.length) +
            4 ^ pads * number 256 (r.map UInt8.toNat) := by
          rw [number_append, hfour, hpow, hnumber]
      _ = 4 ^ pads * number 256 ([a.toNat, b.toNat, c.toNat] ++ r.map UInt8.toNat) := by
          rw [number_append, List.length_map]
          ring

/-- **What the encoder writes spells the bytes.** -/
theorem spells_encodeChars (b : Bytes) : Spells (encodeChars b) b := by
  induction b using encodeChars.induct with
  | case1 => exact ⟨[], 0, rfl, by simp, by omega, rfl, rfl⟩
  | case2 a =>
    have := a.toNat_lt
    refine ⟨[a.toNat / 4, a.toNat % 4 * 16], 2, rfl, ?_, by omega, rfl, ?_⟩
    · simp only [List.mem_cons, List.not_mem_nil, or_false, forall_eq_or_imp, forall_eq]
      omega
    · simp only [number_cons, number_nil, List.map_cons, List.map_nil, List.length_cons,
        List.length_nil]
      omega
  | case3 a b =>
    have := a.toNat_lt
    have := b.toNat_lt
    refine ⟨[a.toNat / 4, a.toNat % 4 * 16 + b.toNat / 16, b.toNat % 16 * 4], 1, rfl, ?_,
      by omega, rfl, ?_⟩
    · simp only [List.mem_cons, List.not_mem_nil, or_false, forall_eq_or_imp, forall_eq]
      omega
    · simp only [number_cons, number_nil, List.map_cons, List.map_nil, List.length_cons,
        List.length_nil]
      omega
  | case4 a b c r ih => exact ih.group a b c

/-- **Bytes are spelt in one way only.** -/
theorem spells_iff {text : List Char} {b : Bytes} : Spells text b ↔ text = encodeChars b := by
  constructor
  · intro ⟨digits, pads, htext, hdigits, hpads, hlength, hnumber⟩
    obtain ⟨digits', pads', htext', hdigits', hpads', hlength', hnumber'⟩ := spells_encodeChars b
    obtain rfl : pads = pads' := by omega
    have hdigits_eq : digits = digits' :=
      eq_of_number_eq (by decide) (by omega) hdigits hdigits' (hnumber.trans hnumber'.symm)
    rw [htext, htext', hdigits_eq]
  · intro h
    exact h ▸ spells_encodeChars b

/-! ## Which texts are read -/

/-- Whole groups with no bits left over can be read. -/
theorem exists_decodeChars?_eq_some {pads : Nat} (hpads : pads ≤ 2) : ∀ digits : List Nat,
    (∀ d ∈ digits, d < 64) → (digits.length + pads) % 4 = 0 →
      (∀ d, digits.getLast? = some d → d % 4 ^ pads = 0) →
        ∃ b, decodeChars? (spelling digits pads) = some b
  | [], _, hlength, _ => by
    obtain rfl : pads = 0 := by simp only [List.length_nil] at hlength; omega
    exact ⟨[], rfl⟩
  | [x], _, hlength, _ => by
    simp only [List.length_cons, List.length_nil] at hlength
    omega
  | [x, y], hdigits, hlength, hlast => by
    obtain rfl : pads = 2 := by simp only [List.length_cons, List.length_nil] at hlength; omega
    have hy : y % 16 = 0 := hlast y rfl
    exact ⟨_, (decodeChars?_one (hdigits x (by simp)) (hdigits y (by simp))).trans (if_pos hy)⟩
  | [x, y, z], hdigits, hlength, hlast => by
    obtain rfl : pads = 1 := by simp only [List.length_cons, List.length_nil] at hlength; omega
    have hz : z % 4 = 0 := hlast z rfl
    exact ⟨_, (decodeChars?_two (hdigits x (by simp)) (hdigits y (by simp))
      (hdigits z (by simp))).trans (if_pos hz)⟩
  | x :: y :: z :: w :: digits, hdigits, hlength, hlast => by
    have hlast' : ∀ d, digits.getLast? = some d → d % 4 ^ pads = 0 := by
      intro d hd
      apply hlast
      cases digits with
      | nil => cases hd
      | cons d' digits => simpa using hd
    have hlength' : (digits.length + pads) % 4 = 0 := by
      simp only [List.length_cons] at hlength
      omega
    have hdigits' : ∀ d ∈ digits, d < 64 := fun d hd => hdigits d (by simp [hd])
    obtain ⟨b, hb⟩ := exists_decodeChars?_eq_some hpads digits hdigits' hlength' hlast'
    have hgroup := decodeChars?_group (hdigits x (by simp)) (hdigits y (by simp))
      (hdigits z (by simp)) (hdigits w (by simp)) (spelling digits pads)
    rw [hb, Option.map_some] at hgroup
    exact ⟨_, hgroup⟩

theorem Spells.isText {text : List Char} {b : Bytes} (h : Spells text b) : IsText text := by
  obtain ⟨digits, pads, htext, hdigits, hpads, hlength, hnumber⟩ := h
  refine ⟨digits, pads, htext, hdigits, hpads, by omega, ?_⟩
  intro d hd
  obtain ⟨above, rfl⟩ := List.getLast?_eq_some_iff.1 hd
  -- the number of the bytes is moved up, and so is what the digits above the last one add to it
  have hnum : number 64 above * 64 + d = 4 ^ pads * number 256 (b.map UInt8.toNat) := by
    rw [← hnumber, number_append, number_cons, number_nil, List.length_singleton]
    simp
  have hdvd : 4 ^ pads ∣ 64 := pow_dvd_pow 4 (show pads ≤ 3 by omega)
  apply Nat.mod_eq_zero_of_dvd
  rw [← Nat.dvd_add_right (hdvd.mul_left (number 64 above)), hnum]
  exact Nat.dvd_mul_right _ _

/-- **A text is read just when it is made of whole groups with no bits left over.** -/
theorem isText_iff {text : List Char} : IsText text ↔ ∃ b, decodeChars? text = some b := by
  constructor
  · intro ⟨digits, pads, htext, hdigits, hpads, hlength, hlast⟩
    exact htext ▸ exists_decodeChars?_eq_some hpads digits hdigits hlength hlast
  · intro ⟨b, hb⟩
    exact (spells_iff.2 (eq_encodeChars hb)).isText

/-! ## Lines -/

/-- The characters of a line, one for each byte. -/
def charsOf (line : Bytes) : List Char := line.map Char.ofUInt8

theorem encodeLine_eq (b : Bytes) : encodeLine b = Utf8.encode (encode b) := by
  rw [Utf8.encode, encode, String.toList_ofList, encodeLine]
  have h : ∀ cs : List Char, (∀ c ∈ cs, IsSymbol c) →
      cs.map Char.toUInt8 = Utf8.encodeChars cs := by
    intro cs hcs
    induction cs with
    | nil => rfl
    | cons c cs ih =>
      have hc : c.toNat < 128 := (hcs c List.mem_cons_self).toNat_lt
      have hbyte : c.toUInt8 = UInt8.ofNat c.toNat :=
        UInt8.toNat_inj.1 (by rw [toNat_toUInt8 (by omega), Utf8.toNat_ofNat (by omega)])
      rw [List.map_cons, ih fun d hd => hcs d (List.mem_cons_of_mem _ hd), Utf8.encodeChars,
        Utf8.encodeChars, List.flatMap_cons, Utf8.encodeChar_of_ascii hc, hbyte,
        List.singleton_append]
  exact h _ fun c hc => isSymbol_of_mem hc

theorem mem_alphabet_or_eq_pad {b : Bytes} {c : Char} (h : c ∈ (encode b).toList) :
    c ∈ alphabet ∨ c = '=' := by
  rw [encode, String.toList_ofList] at h
  rcases isSymbol_of_mem h with rfl | ⟨d, hd, rfl⟩
  · exact .inr rfl
  · exact .inl (List.mem_of_getElem? (alphabet_getElem? hd))

theorem length_encode (b : Bytes) : (encode b).length = 4 * ((b.length + 2) / 3) := by
  rw [encode, String.length_ofList, length_encodeChars]

theorem decode?_eq_none_iff {line : Bytes} : decode? line = none ↔ ¬IsText (charsOf line) := by
  rw [isText_iff, ← Option.isSome_iff_exists, Option.not_isSome_iff_eq_none]
  rfl

theorem spells_charsOf_iff {line b : Bytes} : Spells (charsOf line) b ↔ line = encodeLine b := by
  rw [spells_iff, ← decodeChars?_eq_some_iff]
  exact decode?_eq_some_iff

end Base64

/-! ## The stage -/

namespace Channel

open Base64

theorem unword_eq_malformed_iff {line : Bytes} :
    unword (.ok line) = .error .malformedBase64 ↔ ¬IsText (charsOf line) := by
  rw [← decode?_eq_none_iff]
  cases h : decode? line <;> simp [unword, Except.bind, h]

theorem receive_base64_cons [CipherSuite] (limit : Option Duration) (inner : Channel) :
    receive limit (.base64 :: inner) =
      receive limit inner >>= fun p => pure (unword p.1, .base64 :: p.2) := by
  rw [receive]
  refine congrArg (Dialogue.bind _) (funext fun p => ?_)
  obtain ⟨e | word, inner'⟩ := p
  · rfl
  · rfl

end Channel

/-- **The Base64 stage is exact.** What is written for a byte string is ASCII, consists of characters
of the alphabet and of pads, so of nothing that parts or ends a line, has four characters for each
three bytes or the rest of them, and is read as the bytes again. A line is read as a byte string
just when it is what is written for it, that is, when it spells the bytes; every other line, that
is, each that is not made of whole groups with no bits left over, is a decoding error. The layer
sends and receives by these two alone, and leaves the failures of what is below it as they are. -/
theorem Base64.stage_exact [CipherSuite] :
    (∀ b : Bytes,
      (∀ c ∈ (encode b).toList, c ∈ alphabet ∨ c = '=') ∧
      (∀ c ∈ (encode b).toList, c ≠ ' ' ∧ c ≠ '\r' ∧ c ≠ '\n') ∧
      (encode b).length = 4 * ((b.length + 2) / 3) ∧
      encodeLine b = Utf8.encode (encode b) ∧
      (encodeLine b).length = (encode b).length ∧
      Channel.unword (.ok (encodeLine b)) = .ok b) ∧
    (∀ line b : Bytes,
      (Channel.unword (.ok line) = .ok b ↔ line = encodeLine b) ∧
      (Spells (charsOf line) b ↔ line = encodeLine b)) ∧
    (∀ line : Bytes,
      ((∀ b, line ≠ encodeLine b) ↔ Channel.unword (.ok line) = .error .malformedBase64) ∧
      (IsText (charsOf line) ↔ ∃ b, line = encodeLine b)) ∧
    ChatError.malformedBase64.kind = .decoding ∧
    (∀ (inner : Channel) (payload : Bytes),
      Channel.send (.base64 :: inner) payload =
        inner.send (encodeLine payload) >>= fun p => pure (p.1, .base64 :: p.2)) ∧
    (∀ (limit : Option Duration) (inner : Channel),
      Channel.receive limit (.base64 :: inner) =
        inner.receive limit >>= fun p => pure (Channel.unword p.1, .base64 :: p.2)) ∧
    ∀ e : ChatError, Channel.unword (.error e) = .error e := by
  have written : ∀ line, IsText (charsOf line) ↔ ∃ b, line = encodeLine b := by
    intro line
    rw [isText_iff]
    exact exists_congr fun b => decode?_eq_some_iff
  refine ⟨?_, ?_, ?_, rfl, fun _ _ => rfl, Channel.receive_base64_cons, fun _ => rfl⟩
  · intro b
    refine ⟨fun c hc => mem_alphabet_or_eq_pad hc, ?_, length_encode b, encodeLine_eq b, ?_,
      Channel.unword_eq_ok_iff.2 rfl⟩
    · intro c hc
      rw [encode, String.toList_ofList] at hc
      exact (isSymbol_of_mem hc).elim (P := fun c => c ≠ ' ' ∧ c ≠ '\r' ∧ c ≠ '\n')
        (by decide) (by decide)
    · rw [length_encodeLine, length_encode]
  · intro line b
    rw [Channel.unword_eq_ok_iff, Except.ok.injEq]
    exact ⟨Iff.rfl, spells_charsOf_iff⟩
  · intro line
    rw [Channel.unword_eq_malformed_iff, written]
    exact ⟨not_exists.symm, Iff.rfl⟩

end SealedChat
