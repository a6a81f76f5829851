import Mathlib.Data.List.Nodup
import Mathlib.Data.Nat.Bitwise
import SealedChat.Proofs.SessionCipher.Delivery

/-!
# No nonce is used twice

Two ends of a session seal and open whatever they are handed, in any order (`Conversation`). Here
nothing is asked of the cipher or of the ciphertexts: any of them may be forged, and any call may
fail.

**Words.** A nonce ends with a word of 64 bits, the direction bit of its sender or'ed with the number
of the message. A number below 2⁶³ leaves that bit alone, so the word is read in one way
(`toNat_bit_or`).

**The invariant** (`Conversation.Numbered`). The counters of an end are how many messages it has
sealed and opened, neither is more than 2⁶³, and the messages it has sealed were sealed under the
nonces of the numbers 0, 1, 2, … in order. A call changes nothing, or is the next message of one
list (`Conversation.step_cases`), so it keeps the invariant.

Main result: `Conversation.numbering`. All nonces of a session differ, whichever end has used them,
and an end that has come to 2⁶³ seals nothing more.
-/

namespace SealedChat

/-! ## Words -/

/-- A number that a word of 64 bits holds, and still holds when it has gone up by one. -/
def FitsWord (n : Nat) : Prop := (UInt64.ofNat n).toNat = n ∧ (UInt64.ofNat n + 1).toNat = n + 1

namespace SessionCrypt

/-- The direction bit of a sender, as a word. -/
def bit : Role → UInt64
  | .initiator => 0
  | .responder => (1 : UInt64) <<< 63

theorem toNat_bit (role : Role) : (bit role).toNat = outbound role := by
  cases role <;> decide

variable {role : Role} {k : Nat}

theorem fitsWord_of_le (h : k ≤ directionBit) : FitsWord k := by
  have hbit : directionBit + 1 < 2 ^ 64 := by decide
  have hlt : k + 1 < 2 ^ 64 := Nat.lt_of_le_of_lt (Nat.succ_le_succ h) hbit
  have hk : (UInt64.ofNat k).toNat = k := UInt64.toNat_ofNat_of_lt' (Nat.lt_of_succ_lt hlt)
  refine ⟨hk, ?_⟩
  rw [UInt64.toNat_add, hk]
  exact Nat.mod_eq_of_lt hlt

/-- A number below the direction bit does not touch it. -/
theorem ofNat_and_bit (h : k < directionBit) : UInt64.ofNat k &&& bit .responder = 0 := by
  have hk := (fitsWord_of_le (Nat.le_of_lt h)).1
  have htest : k.testBit 63 = false := Nat.testBit_lt_two_pow h
  rw [← UInt64.toNat_inj, UInt64.toNat_and, hk, toNat_bit, outbound]
  exact (Nat.and_two_pow k 63).trans (by simp [htest])

/-- **The word of a message**: the direction bit or'ed with the number. -/
theorem toNat_bit_or (role : Role) (h : k < directionBit) :
    (bit role ||| .ofNat k).toNat = outbound role ||| k := by
  rw [UInt64.toNat_or, (fitsWord_of_le (Nat.le_of_lt h)).1, toNat_bit]

theorem nonce_bytes (iv : Iv) (role : Role) (h : k < directionBit) :
    (nonce iv role k).bytes =
      iv.block.bytes ++ Bytes.bigEndian 8 (bit role ||| .ofNat k).toNat := by
  rw [toNat_bit_or role h]
  rfl

end SessionCrypt

namespace Conversation

open SessionCrypt

/-! ## What a call does -/

/-- An end has sealed one more message. -/
def afterSealing (t : Conversation) (role : Role) (m : Sealed) : Conversation :=
  { t with
    ends := Function.update t.ends role { t.ends role with sent := (t.ends role).sent + 1 }
    sealed := Function.update t.sealed role (t.sealed role ++ [m]) }

/-- An end has opened one more message. -/
def afterOpening (t : Conversation) (role : Role) (plain : Bytes) : Conversation :=
  { t with
    ends := Function.update t.ends role { t.ends role with received := (t.ends role).received + 1 }
    opened := Function.update t.opened role (t.opened role ++ [plain]) }

/-- The nonce that an end will encrypt under. -/
def offered (t : Conversation) (role : Role) : Block 24 :=
  nonce (t.ends role).secrets.iv (t.ends role).role (t.ends role).sent

variable [CipherSuite] {secrets : Secrets} {t : Conversation} {role : Role}

/-- **A call changes nothing**, or it is the next message that an end seals, or the next that it
opens. -/
theorem step_cases (t : Conversation) (call : Call) :
    t.step call = t ∨
    (∃ role plain cipher, call = .encrypt role plain ∧
      encrypt (t.ends role).secrets (t.ends role).role (t.ends role).sent plain = .ok cipher ∧
      t.step call = t.afterSealing role ⟨plain, t.offered role, cipher⟩) ∨
    ∃ role cipher plain, call = .decrypt role cipher ∧
      decrypt (t.ends role).secrets (t.ends role).role.other (t.ends role).received cipher =
        .ok plain ∧
      t.step call = t.afterOpening role plain := by
  cases call with
  | encrypt role plain =>
    rcases (t.ends role).encrypt_cases plain with ⟨cipher, hc, he⟩ | ⟨e, he⟩
    · refine .inr (.inl ⟨role, plain, cipher, rfl, hc, ?_⟩)
      simp only [step, he]
      rfl
    · left
      simp only [step, he, Function.update_eq_self]
  | decrypt role cipher =>
    rcases (t.ends role).decrypt_cases cipher with ⟨plain, hp, he⟩ | ⟨e, he⟩
    · refine .inr (.inr ⟨role, cipher, plain, rfl, hp, ?_⟩)
      simp only [step, he]
      rfl
    · left
      simp only [step, he, Function.update_eq_self]

/-! ## The invariant -/

/-- The counters of the ends tell what they have sealed and opened. -/
structure Numbered (secrets : Secrets) (t : Conversation) : Prop where
  ends : ∀ role, t.ends role = ⟨secrets, role, (t.sealed role).length, (t.opened role).length⟩
  nonces : ∀ role, (t.sealed role).map Sealed.nonce =
    (List.range (t.sealed role).length).map (nonce secrets.iv role)
  encrypted : ∀ role, ∀ m ∈ t.sealed role,
    CipherSuite.session.encrypt secrets.key.block m.nonce m.plain = some m.cipher
  sealed_le : ∀ role, (t.sealed role).length ≤ directionBit
  opened_le : ∀ role, (t.opened role).length ≤ directionBit

theorem numbered_start (secrets : Secrets) : (start secrets).Numbered secrets where
  ends _ := rfl
  nonces _ := rfl
  encrypted _ _ hm := by simp [start] at hm
  sealed_le _ := Nat.zero_le _
  opened_le _ := Nat.zero_le _

theorem Numbered.afterSealing (h : t.Numbered secrets) {plain cipher : Bytes}
    (hc : encrypt secrets role (t.sealed role).length plain = .ok cipher) :
    (t.afterSealing role ⟨plain, t.offered role, cipher⟩).Numbered secrets := by
  obtain ⟨hlt, henc⟩ := encrypt_eq_ok_iff.1 hc
  have hnonce : t.offered role = nonce secrets.iv role (t.sealed role).length := by
    rw [offered, h.ends]
  refine ⟨fun r => ?_, fun r => ?_, fun r m hm => ?_, fun r => ?_, h.opened_le⟩
  · by_cases hr : r = role
    · subst hr
      simp [Conversation.afterSealing, h.ends]
    · simp [Conversation.afterSealing, hr, h.ends]
  · by_cases hr : r = role
    · subst hr
      simp [Conversation.afterSealing, h.nonces, hnonce, List.range_succ]
    · simp [Conversation.afterSealing, hr, h.nonces]
  · by_cases hr : r = role
    · subst hr
      simp only [Conversation.afterSealing, Function.update_self, List.mem_append,
        List.mem_singleton] at hm
      rcases hm with hm | rfl
      · exact h.encrypted r m hm
      · rw [hnonce]
        exact henc
    · simp only [Conversation.afterSealing, Function.update_of_ne hr] at hm
      exact h.encrypted r m hm
  · by_cases hr : r = role
    · subst hr
      simpa [Conversation.afterSealing] using Nat.succ_le_of_lt hlt
    · simpa [Conversation.afterSealing, hr] using h.sealed_le r

theorem Numbered.afterOpening (h : t.Numbered secrets) {plain cipher : Bytes}
    (hp : decrypt secrets role.other (t.opened role).length cipher = .ok plain) :
    (t.afterOpening role plain).Numbered secrets := by
  have hlt := (decrypt_eq_ok_iff.1 hp).1
  refine ⟨fun r => ?_, h.nonces, h.encrypted, h.sealed_le, fun r => ?_⟩
  · by_cases hr : r = role
    · subst hr
      simp [Conversation.afterOpening, h.ends]
    · simp [Conversation.afterOpening, hr, h.ends]
  · by_cases hr : r = role
    · subst hr
      simpa [Conversation.afterOpening] using Nat.succ_le_of_lt hlt
    · simpa [Conversation.afterOpening, hr] using h.opened_le r

/-- Every call keeps the numbers. -/
theorem Numbered.step (h : t.Numbered secrets) (call : Call) : (t.step call).Numbered secrets := by
  rcases t.step_cases call with heq | ⟨role, plain, cipher, -, hc, heq⟩ |
    ⟨role, cipher, plain, -, hp, heq⟩
  · rw [heq]
    exact h
  · rw [h.ends] at hc
    rw [heq]
    exact h.afterSealing hc
  · rw [h.ends] at hp
    rw [heq]
    exact h.afterOpening hp

theorem Numbered.steps (h : t.Numbered secrets) (calls : List Call) :
    (calls.foldl Conversation.step t).Numbered secrets := by
  induction calls generalizing t with
  | nil => exact h
  | cons call calls ih => exact ih (h.step call)

theorem numbered_run (secrets : Secrets) (calls : List Call) :
    (run secrets calls).Numbered secrets :=
  (numbered_start secrets).steps calls

/-! ## What follows from it -/

/-- The nonces of an end are those of different numbers, and the ends differ in the direction bit. -/
theorem Numbered.nodup_nonces (h : t.Numbered secrets) :
    ((t.sealed .initiator ++ t.sealed .responder).map Sealed.nonce).Nodup := by
  have hlt {role : Role} {k : Nat} (hk : k ∈ List.range (t.sealed role).length) :
      k < directionBit := Nat.lt_of_lt_of_le (List.mem_range.1 hk) (h.sealed_le role)
  have hend (role : Role) : ((t.sealed role).map Sealed.nonce).Nodup := by
    rw [h.nonces]
    refine List.nodup_range.map_on fun k hk l hl heq => ?_
    exact (nonce_inj (hlt hk) (hlt hl) heq).2
  rw [List.map_append, List.nodup_append]
  refine ⟨hend .initiator, hend .responder, fun x hx y hy hxy => ?_⟩
  rw [h.nonces, List.mem_map] at hx hy
  obtain ⟨k, hk, rfl⟩ := hx
  obtain ⟨l, hl, rfl⟩ := hy
  exact absurd (nonce_inj (hlt hk) (hlt hl) hxy).1 (by decide)

theorem Numbered.encrypt_cases (h : t.Numbered secrets) (role : Role) (plain : Bytes) :
    (∃ cipher, (t.ends role).sent < directionBit ∧
      CipherSuite.session.encrypt secrets.key.block
        (nonce secrets.iv role (t.ends role).sent) plain = some cipher ∧
      (t.ends role).encrypt plain =
        (.ok cipher, { t.ends role with sent := (t.ends role).sent + 1 })) ∨
    ∃ e, (t.ends role).encrypt plain = (.error e, t.ends role) := by
  refine ((t.ends role).encrypt_cases plain).imp_left fun ⟨cipher, hc, heq⟩ => ?_
  obtain ⟨hlt, henc⟩ := encrypt_eq_ok_iff.1 hc
  refine ⟨cipher, hlt, ?_, heq⟩
  rw [h.ends] at henc ⊢
  exact henc

end Conversation

namespace SessionCipher

variable [CipherSuite] {s : SessionCipher}

/-- An end that has no number left refuses to seal. -/
theorem encrypt_of_exhausted (h : SessionCrypt.directionBit ≤ s.sent) (plain : Bytes) :
    s.encrypt plain = (.error .sequenceExhausted, s) := by
  rw [encrypt_eq, SessionCrypt.encrypt_of_le h]

end SessionCipher

namespace Conversation

open SessionCrypt

variable [CipherSuite] {secrets : Secrets} {t : Conversation} {role : Role}

/-- Whatever is called next, an end that has no number left seals nothing more. -/
theorem sent_of_exhausted (h : directionBit ≤ (t.ends role).sent) (calls : List Call) :
    (calls.foldl step t).sealed role = t.sealed role ∧
      directionBit ≤ ((calls.foldl step t).ends role).sent := by
  induction calls generalizing t with
  | nil => exact ⟨rfl, h⟩
  | cons call calls ih =>
    have hstep : (t.step call).sealed role = t.sealed role ∧
        ((t.step call).ends role).sent = (t.ends role).sent := by
      rcases t.step_cases call with heq | ⟨r, plain, cipher, -, hc, heq⟩ |
        ⟨r, cipher, plain, -, -, heq⟩
      · rw [heq]
        exact ⟨rfl, rfl⟩
      · have hr : role ≠ r := by
          rintro rfl
          exact absurd (encrypt_eq_ok_iff.1 hc).1 (Nat.not_lt.2 h)
        rw [heq]
        simp [afterSealing, hr]
      · rw [heq]
        by_cases hr : role = r
        · subst hr
          simp [afterOpening]
        · simp [afterOpening, hr]
    rw [← hstep.2] at h
    obtain ⟨hsealed, hsent⟩ := ih h
    exact ⟨hsealed.trans hstep.1, hsent⟩

/-! ## The theorem -/

/-- How the messages of a session are numbered. -/
structure Numbering (secrets : Secrets) (t : Conversation) : Prop where
  /-- All nonces differ, whichever end has used them. -/
  nodup : ((t.sealed .initiator ++ t.sealed .responder).map Sealed.nonce).Nodup
  /-- Every message was encrypted under the nonce that is noted with it. -/
  encrypted : ∀ role, ∀ m ∈ t.sealed role,
    CipherSuite.session.encrypt secrets.key.block m.nonce m.plain = some m.cipher
  /-- The messages of an end have the numbers below its counter, each once and in order. -/
  numbers : ∀ role, (t.sealed role).map Sealed.nonce =
    (List.range (t.ends role).sent).map (nonce secrets.iv role)
  /-- A nonce is the vector and a word: the direction bit or'ed with a number that leaves this bit
  alone. -/
  words : ∀ role, ∀ k < (t.ends role).sent,
    (nonce secrets.iv role k).bytes =
      secrets.iv.block.bytes ++ Bytes.bigEndian 8 (bit role ||| .ofNat k).toNat ∧
    UInt64.ofNat k &&& bit .responder = 0
  /-- To seal takes the next number, or fails and changes nothing. -/
  sealing : ∀ role plain, (∃ cipher, (t.ends role).sent < directionBit ∧
      CipherSuite.session.encrypt secrets.key.block
        (nonce secrets.iv role (t.ends role).sent) plain = some cipher ∧
      (t.ends role).encrypt plain =
        (.ok cipher, { t.ends role with sent := (t.ends role).sent + 1 })) ∨
    ∃ e, (t.ends role).encrypt plain = (.error e, t.ends role)
  /-- To open takes the next number, or fails and changes nothing. -/
  opening : ∀ role cipher, (∃ plain, (t.ends role).received < directionBit ∧
      (t.ends role).decrypt cipher =
        (.ok plain, { t.ends role with received := (t.ends role).received + 1 })) ∨
    ∃ e, (t.ends role).decrypt cipher = (.error e, t.ends role)
  /-- An end without a number left refuses to seal, whatever is called in between. -/
  exhausted : ∀ role, directionBit ≤ (t.ends role).sent → ∀ calls : List Call,
    (calls.foldl step t).sealed role = t.sealed role ∧
    ∀ plain, ((calls.foldl step t).ends role).encrypt plain =
      (.error .sequenceExhausted, (calls.foldl step t).ends role)
  /-- No counter passes the direction bit, or leaves its word. -/
  counters : ∀ role, (t.ends role).sent ≤ directionBit ∧ (t.ends role).received ≤ directionBit ∧
    FitsWord (t.ends role).sent ∧ FitsWord (t.ends role).received

/-- **No two messages of a session have one nonce**, whatever its ends are asked to seal and to
open. -/
theorem numbering (secrets : Secrets) (calls : List Call) :
    (run secrets calls).Numbering secrets := by
  have h := numbered_run secrets calls
  generalize run secrets calls = t at h
  have hsent (role : Role) : (t.ends role).sent = (t.sealed role).length := by rw [h.ends]
  have hle (role : Role) : (t.ends role).sent ≤ directionBit ∧
      (t.ends role).received ≤ directionBit := by
    rw [h.ends]
    exact ⟨h.sealed_le role, h.opened_le role⟩
  refine ⟨h.nodup_nonces, h.encrypted, fun role => ?_, fun role k hk => ?_, fun role plain => ?_,
    fun role cipher => ?_, fun role hx calls => ?_, fun role => ?_⟩
  · rw [hsent]
    exact h.nonces role
  · have hlt : k < directionBit := Nat.lt_of_lt_of_le hk (hle role).1
    exact ⟨nonce_bytes secrets.iv role hlt, ofNat_and_bit hlt⟩
  · exact h.encrypt_cases role plain
  · refine ((t.ends role).decrypt_cases cipher).imp_left fun ⟨plain, hp, heq⟩ => ?_
    exact ⟨plain, (decrypt_eq_ok_iff.1 hp).1, heq⟩
  · obtain ⟨hsealed, hx⟩ := sent_of_exhausted hx calls
    exact ⟨hsealed, fun plain => SessionCipher.encrypt_of_exhausted hx plain⟩
  · obtain ⟨hs, hr⟩ := hle role
    exact ⟨hs, hr, fitsWord_of_le hs, fitsWord_of_le hr⟩

end Conversation

end SealedChat
