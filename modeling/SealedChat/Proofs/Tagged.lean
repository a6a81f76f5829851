import SealedChat.Channel
import SealedChat.Proofs.Base64

/-!
# Tagged lines

A line is split at its first space, and no tag holds one, so what a tagged line was made of is found
again. Nothing else is taken for genuine: a line is authentic only if it is the tagged line of its
payload, letter by letter (`verify_eq_authentic_iff`). Of every other line the payload is kept as it
stands behind the first space (`payload_verify_eq_iff`).

Main result: `accepts_what_is_sent`.
-/

namespace SealedChat.Tagged

variable {key : IntegrityKey} {line word payload : Bytes}

/-! ## The first space -/

theorem split?_of_not_mem {received : Bytes} (h : space ∉ received) : split? received = none := by
  induction received with
  | nil => rfl
  | cons b r ih =>
    rw [List.mem_cons, not_or] at h
    rw [split?, if_neg (Ne.symm h.1), ih h.2]
    rfl

theorem split?_append (h : space ∉ word) (payload : Bytes) :
    split? (word ++ space :: payload) = some (word, payload) := by
  induction word with
  | nil => rfl
  | cons b word ih =>
    rw [List.mem_cons, not_or] at h
    rw [List.cons_append, split?, if_neg (Ne.symm h.1), ih h.2]
    rfl

theorem split?_eq_some_iff {received : Bytes} : split? received = some (word, payload) ↔
    space ∉ word ∧ received = word ++ space :: payload := by
  constructor
  · intro h
    by_cases hm : space ∈ received
    · obtain ⟨w, p, rfl, hw⟩ := List.eq_append_cons_of_mem hm
      rw [split?_append hw] at h
      cases h
      exact ⟨hw, rfl⟩
    · rw [split?_of_not_mem hm] at h
      cases h
  · rintro ⟨hw, rfl⟩
    exact split?_append hw payload

theorem not_mem_space_encodeLine (b : Bytes) : space ∉ Base64.encodeLine b := by
  intro h
  obtain ⟨c, hc, heq⟩ := Base64.exists_isSymbol_of_mem h
  exact hc.elim (P := fun c => space ≠ c.toUInt8) (by decide) (by decide) heq

/-! ## Genuine lines -/

theorem split?_line (key : IntegrityKey) (payload : Bytes) :
    split? (Tagged.line key payload) = some (Base64.encodeLine (key.tag payload).bytes, payload) :=
  split?_append (not_mem_space_encodeLine _) payload

/-- **A line is authentic only if it is the tagged line of its payload.** -/
theorem verify_eq_authentic_iff :
    verify key line = .authentic payload ↔ line = Tagged.line key payload := by
  constructor
  · intro h
    unfold verify at h
    cases hs : split? line with
    | none =>
      rw [hs] at h
      cases h
    | some p =>
      obtain ⟨word, rest⟩ := p
      obtain ⟨-, rfl⟩ := split?_eq_some_iff.1 hs
      rw [hs] at h
      cases hd : Base64.decode? word with
      | none =>
        simp only [hd] at h
        cases h
      | some tag =>
        simp only [hd] at h
        split_ifs at h with hv
        cases h
        have htag : (key.tag payload).bytes = tag := by simpa [IntegrityKey.verify] using hv
        rw [Base64.decode?_eq_some_iff.1 hd, ← htag]
        rfl
  · rintro rfl
    simp [verify, split?_line, IntegrityKey.verify]

@[simp]
theorem verify_line (key : IntegrityKey) (payload : Bytes) :
    verify key (Tagged.line key payload) = .authentic payload :=
  verify_eq_authentic_iff.2 rfl

theorem line_injective (key : IntegrityKey) : Function.Injective (Tagged.line key) := by
  intro p p' h
  have hp := verify_line key p
  rw [h, verify_line] at hp
  cases hp
  rfl

/-- The payload of a line, genuine or not, is what is behind its first space, or the whole line. -/
theorem payload_verify_eq_iff : (verify key line).payload = payload ↔
    space ∉ line ∧ payload = line ∨ ∃ word, space ∉ word ∧ line = word ++ space :: payload := by
  cases hs : split? line with
  | none =>
    have hm : space ∉ line := by
      intro hm
      obtain ⟨word, rest, rfl, hw⟩ := List.eq_append_cons_of_mem hm
      rw [split?_append hw] at hs
      cases hs
    have hp : (verify key line).payload = line := by
      simp only [verify, hs]
      rfl
    rw [hp]
    constructor
    · rintro rfl
      exact .inl ⟨hm, rfl⟩
    · rintro (⟨-, rfl⟩ | ⟨word, -, rfl⟩)
      · rfl
      · exact absurd (by simp) hm
  | some p =>
    obtain ⟨word, body⟩ := p
    obtain ⟨hw, rfl⟩ := split?_eq_some_iff.1 hs
    have hp : (verify key (word ++ space :: body)).payload = body := by
      cases hd : Base64.decode? word with
      | none =>
        simp only [verify, hs, hd]
        rfl
      | some tag =>
        simp only [verify, hs, hd]
        split_ifs <;> rfl
    rw [hp]
    constructor
    · rintro rfl
      exact .inr ⟨word, hw, rfl⟩
    · rintro (⟨hm, -⟩ | ⟨word', hw', heq⟩)
      · exact absurd (by simp) hm
      · rw [heq, split?_append hw'] at hs
        cases hs
        rfl

theorem payload_verify_cases (key : IntegrityKey) (line : Bytes) :
    (verify key line).payload = line ∨ ∃ word, line = word ++ space :: (verify key line).payload := by
  rcases payload_verify_eq_iff.1 (Eq.refl (verify key line).payload) with ⟨-, h⟩ | ⟨word, -, h⟩
  · exact .inl h
  · exact .inr ⟨word, h⟩

/-- The line is not one that the holder of the key makes. -/
def Foreign (key : IntegrityKey) (line : Bytes) : Prop := ∀ payload, line ≠ Tagged.line key payload

theorem Foreign.verify (h : Foreign key line) : ∃ body, verify key line = .tampered body := by
  cases hv : Tagged.verify key line with
  | authentic payload => exact absurd (verify_eq_authentic_iff.1 hv) (h payload)
  | tampered body => exact ⟨body, rfl⟩

theorem foreign_of_not_mem (h : space ∉ line) : Foreign key line := by
  rintro payload rfl
  exact h (by simp [Tagged.line])

/-- What nobody who holds the key makes is not genuine, and all else is. -/
theorem verify_eq_tampered_iff {body : Bytes} :
    verify key line = .tampered body ↔ Foreign key line ∧ (verify key line).payload = body := by
  cases hv : verify key line with
  | authentic payload =>
    have hline := verify_eq_authentic_iff.1 hv
    constructor
    · intro h
      cases h
    · rintro ⟨hf, -⟩
      exact absurd hline (hf payload)
  | tampered received =>
    have hf : Foreign key line := by
      rintro payload rfl
      rw [verify_line] at hv
      cases hv
    constructor
    · intro h
      cases h
      exact ⟨hf, rfl⟩
    · rintro ⟨-, rfl⟩
      rfl

/-- **What is taken for genuine is what is sent.** With each payload exactly one line is accepted: its
tag, one space, and the payload. That is the line which an integrity layer hands to what is below
it. Of any other line everything behind the first space is kept, or the whole line if there is no
space in it. -/
theorem accepts_what_is_sent [CipherSuite] (key : IntegrityKey) :
    (∀ line payload, verify key line = .authentic payload ↔
      line = Base64.encodeLine (Hmac.tag key.bytes payload).bytes ++ space :: payload) ∧
    (∀ payload, ∃! line, verify key line = .authentic payload) ∧
    (∀ (inner : Channel) (payload : Bytes), Channel.send (.integrity key :: inner) payload = do
      let line := Base64.encodeLine (Hmac.tag key.bytes payload).bytes ++ space :: payload
      let (o, inner) ← inner.send line
      return (o, .integrity key :: inner)) ∧
    ∀ line body, verify key line = .tampered body ↔
      (∀ payload, line ≠ Base64.encodeLine (Hmac.tag key.bytes payload).bytes ++ space :: payload) ∧
      (space ∉ line ∧ body = line ∨ ∃ word, space ∉ word ∧ line = word ++ space :: body) := by
  refine ⟨fun line payload => verify_eq_authentic_iff, fun payload => ?_, fun inner payload => rfl,
    fun line body => ?_⟩
  · exact ⟨Tagged.line key payload, verify_line key payload, fun line h =>
      verify_eq_authentic_iff.1 h⟩
  · rw [verify_eq_tampered_iff, payload_verify_eq_iff]
    rfl

end SealedChat.Tagged
