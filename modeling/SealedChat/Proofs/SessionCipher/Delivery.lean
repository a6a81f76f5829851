import Mathlib.Data.List.Infix
import Mathlib.Logic.Function.Basic
import SealedChat.Proofs.Cipher.Aead
import SealedChat.Proofs.History
import SealedChat.Proofs.SessionCipher

/-!
# In order, or not at all

Two ends of a session encrypt and decrypt whatever they are handed, in any order. Ciphertexts may be
lost, repeated, swapped, cut short, changed, made up, or handed back to the end that they came from.

**The state** (`Conversation`). Both ends, what each has sealed, and what each has opened.

**Forgeries** (`Unforged`). The cipher may refuse or accept what it likes, except that bytes which
open under the key and a nonce have been sealed under that key and that nonce before.

**The invariant** (`Conversation.Inv`). The counters of an end are the lengths of its two lists, and
the `k`-th message sealed by an end was sealed under the nonce of its number `k`. No other message of
the session has that nonce, so what an end can open is the one message it waits for.

Main result: `Conversation.delivery`. What one end has opened is a prefix of what the other has
sealed, and the next message of that list still opens.
-/

namespace SealedChat

/-- A message with the nonce that it was sealed under. -/
structure Sealed where
  plain : Bytes
  nonce : Block 24
  cipher : Bytes
deriving DecidableEq

structure Conversation where
  ends : Role → SessionCipher
  /-- What each end has sealed, the oldest first. -/
  sealed : Role → List Sealed
  /-- What each end has opened, the oldest first. -/
  opened : Role → List Bytes

namespace Conversation

inductive Call where
  | encrypt (role : Role) (plain : Bytes)
  | decrypt (role : Role) (cipher : Bytes)

def start (secrets : Secrets) : Conversation :=
  ⟨SessionCipher.new secrets, fun _ => [], fun _ => []⟩

/-- The texts that an end has sealed. -/
def said (t : Conversation) (role : Role) : List Bytes := (t.sealed role).map Sealed.plain

/-- The nonce that an end will decrypt under. -/
def awaited (t : Conversation) (role : Role) : Block 24 :=
  SessionCrypt.nonce (t.ends role).secrets.iv (t.ends role).role.other (t.ends role).received

variable [CipherSuite]

def step (t : Conversation) : Call → Conversation
  | .encrypt role plain =>
    let nonce := SessionCrypt.nonce (t.ends role).secrets.iv (t.ends role).role (t.ends role).sent
    match (t.ends role).encrypt plain with
    | (.ok cipher, s) =>
      { t with
        ends := Function.update t.ends role s
        sealed := Function.update t.sealed role (t.sealed role ++ [⟨plain, nonce, cipher⟩]) }
    | (.error _, s) => { t with ends := Function.update t.ends role s }
  | .decrypt role cipher =>
    match (t.ends role).decrypt cipher with
    | (.ok plain, s) =>
      { t with
        ends := Function.update t.ends role s
        opened := Function.update t.opened role (t.opened role ++ [plain]) }
    | (.error _, s) => { t with ends := Function.update t.ends role s }

def run (secrets : Secrets) (calls : List Call) : Conversation := calls.foldl step (start secrets)

/-- Bytes that an end could open next have been sealed under the session's key and the nonce that the
end waits for. -/
def Genuine (t : Conversation) (key : Block 32) (role : Role) (cipher : Bytes) : Prop :=
  ∀ plain, CipherSuite.session.decrypt key (t.awaited role) cipher = some plain →
    ∃ sender, ∃ m ∈ t.sealed sender, m.nonce = t.awaited role ∧ m.cipher = cipher

/-- Nothing in the run opens that was not sealed before. -/
def Unforged (secrets : Secrets) (calls : List Call) : Prop :=
  ∀ before role cipher after, calls = before ++ .decrypt role cipher :: after →
    (run secrets before).Genuine secrets.key.block role cipher

/-! ## The invariant -/

structure Inv (secrets : Secrets) (t : Conversation) : Prop where
  ends : ∀ role, t.ends role = ⟨secrets, role, (t.sealed role).length, (t.opened role).length⟩
  sealed : ∀ role k m, (t.sealed role)[k]? = some m →
    m.nonce = SessionCrypt.nonce secrets.iv role k ∧
      SessionCrypt.encrypt secrets role k m.plain = .ok m.cipher
  opened : ∀ role, t.opened role <+: t.said role.other

variable {secrets : Secrets} {t : Conversation} {role : Role} {plain cipher : Bytes}

theorem inv_start (secrets : Secrets) : (start secrets).Inv secrets where
  ends _ := rfl
  sealed _ _ _ h := by simp [start] at h
  opened _ := List.nil_prefix

theorem Inv.encrypt (h : t.Inv secrets) (role : Role) (plain : Bytes) :
    (t.step (.encrypt role plain)).Inv secrets := by
  rcases (t.ends role).encrypt_cases plain with ⟨cipher, hc, he⟩ | ⟨e, he⟩
  · rw [h.ends] at hc
    simp only [step, he]
    refine ⟨fun r => ?_, fun r k m hm => ?_, fun r => ?_⟩
    · by_cases hr : r = role
      · subst hr
        simp [h.ends]
      · simp [hr, h.ends]
    · by_cases hr : r = role
      · subst hr
        simp only [Function.update_self] at hm
        rcases of_getElem?_snoc hm with hpast | ⟨rfl, rfl⟩
        · exact h.sealed r k m hpast
        · rw [h.ends]
          exact ⟨rfl, hc⟩
      · simp only [Function.update_of_ne hr] at hm
        exact h.sealed r k m hm
    · refine (h.opened r).trans ?_
      by_cases hr : r.other = role
      · simp [said, hr]
      · simp [said, hr]
  · simp only [step, he, Function.update_eq_self]
    exact h

/-- The message that an end waits for. -/
theorem Inv.eq_of_awaited (h : t.Inv secrets) (hr : (t.opened role).length < SessionCrypt.directionBit)
    {sender : Role} {m : Sealed} (hm : m ∈ t.sealed sender) (hn : m.nonce = t.awaited role) :
    (t.sealed role.other)[(t.opened role).length]? = some m := by
  obtain ⟨k, hk⟩ := List.mem_iff_getElem?.1 hm
  obtain ⟨hnonce, hc⟩ := h.sealed sender k m hk
  have hlt := (SessionCrypt.encrypt_eq_ok_iff.1 hc).1
  rw [hnonce, awaited, h.ends] at hn
  obtain ⟨rfl, rfl⟩ := SessionCrypt.nonce_inj hlt hr hn
  exact hk

theorem Inv.decrypt (hf : CipherSuite.session.Faithful) (h : t.Inv secrets)
    (hg : t.Genuine secrets.key.block role cipher) : (t.step (.decrypt role cipher)).Inv secrets := by
  rcases (t.ends role).decrypt_cases cipher with ⟨plain, hp, he⟩ | ⟨e, he⟩
  · rw [h.ends] at hp
    obtain ⟨hlt, hdec⟩ := SessionCrypt.decrypt_eq_ok_iff.1 hp
    have haw : t.awaited role =
        SessionCrypt.nonce secrets.iv role.other (t.opened role).length := by rw [awaited, h.ends]
    obtain ⟨sender, m, hm, hn, rfl⟩ := hg plain (haw ▸ hdec)
    have hget := h.eq_of_awaited hlt hm hn
    obtain ⟨-, hc⟩ := h.sealed role.other _ m hget
    have hplain : m.plain = plain := by
      have := hf (SessionCrypt.encrypt_eq_ok_iff.1 hc).2
      exact Option.some.inj (this.symm.trans hdec)
    simp only [step, he]
    refine ⟨fun r => ?_, h.sealed, fun r => ?_⟩
    · by_cases hr : r = role
      · subst hr
        simp [h.ends]
      · simp [hr, h.ends]
    · by_cases hr : r = role
      · subst hr
        have hsaid : (t.said r.other)[(t.opened r).length]? = some plain := by
          rw [said, List.getElem?_map, hget, ← hplain]
          rfl
        obtain ⟨hl, hget⟩ := List.getElem?_eq_some_iff.1 hsaid
        have := List.concat_get_prefix (h.opened r) hl
        rw [List.get_eq_getElem, hget] at this
        simp only [Function.update_self]
        exact this
      · simp only [Function.update_of_ne hr]
        exact h.opened r
  · simp only [step, he, Function.update_eq_self]
    exact h

/-! ## Runs -/

theorem Unforged.of_append {calls : List Call} {c : Call} (h : Unforged secrets (calls ++ [c])) :
    Unforged secrets calls := fun before role cipher after hc =>
  h before role cipher (after ++ [c]) (by rw [hc, List.append_assoc, List.cons_append])

theorem run_append (secrets : Secrets) (calls : List Call) (c : Call) :
    run secrets (calls ++ [c]) = (run secrets calls).step c := by
  rw [run, run, List.foldl_append]
  rfl

/-- Whatever the ends are handed, the invariant holds. -/
theorem inv_run (hf : CipherSuite.session.Faithful) {calls : List Call}
    (hg : Unforged secrets calls) : (run secrets calls).Inv secrets := by
  induction calls using List.reverseRecOn with
  | nil => exact inv_start secrets
  | append_singleton calls c ih =>
    rw [run_append]
    cases c with
    | encrypt role plain => exact (ih hg.of_append).encrypt role plain
    | decrypt role cipher => exact (ih hg.of_append).decrypt hf (hg calls role cipher [] rfl)

/-- The next message opens. -/
theorem Inv.decrypt_next (hf : CipherSuite.session.Faithful) (h : t.Inv secrets) {m : Sealed}
    (hm : (t.sealed role.other)[(t.opened role).length]? = some m) :
    ((t.ends role).decrypt m.cipher).1 = .ok m.plain := by
  obtain ⟨-, hc⟩ := h.sealed _ _ m hm
  obtain ⟨hlt, henc⟩ := SessionCrypt.encrypt_eq_ok_iff.1 hc
  have hd : SessionCrypt.decrypt (t.ends role).secrets (t.ends role).role.other
      (t.ends role).received m.cipher = .ok m.plain := by
    rw [h.ends]
    exact SessionCrypt.decrypt_eq_ok_iff.2 ⟨hlt, hf henc⟩
  rw [SessionCipher.decrypt_of_ok hd]

/-- **Delivery.** Whatever is done to the ciphertexts on their way, an end has opened just the first
texts that the other end has sealed, in order, and can open the next one. -/
theorem delivery (hf : CipherSuite.session.Faithful) {calls : List Call}
    (hg : Unforged secrets calls) (role : Role) :
    (run secrets calls).opened role <+: (run secrets calls).said role.other ∧
      ∀ m, ((run secrets calls).sealed role.other)[((run secrets calls).opened role).length]? =
          some m →
        (((run secrets calls).ends role).decrypt m.cipher).1 = .ok m.plain :=
  ⟨(inv_run hf hg).opened role, fun _ hm => (inv_run hf hg).decrypt_next hf hm⟩

/-! ### A replay -/

theorem unforged_nil (secrets : Secrets) : Unforged secrets [] := fun before _ _ _ h => by
  cases before <;> cases h

theorem Unforged.encrypt {calls : List Call} (h : Unforged secrets calls) (role : Role)
    (plain : Bytes) : Unforged secrets (calls ++ [.encrypt role plain]) := by
  intro before r cipher after hc
  rcases List.eq_nil_or_concat after with rfl | ⟨after, c, rfl⟩
  · cases (List.append_inj' hc rfl).2
  · rw [List.concat_eq_append, ← List.cons_append, ← List.append_assoc] at hc
    exact h before r cipher after (List.append_inj' hc rfl).1

theorem Unforged.decrypt {calls : List Call} (h : Unforged secrets calls) (role : Role)
    (cipher : Bytes) (hg : (run secrets calls).Genuine secrets.key.block role cipher) :
    Unforged secrets (calls ++ [.decrypt role cipher]) := by
  intro before r c after hc
  rcases List.eq_nil_or_concat after with rfl | ⟨after, d, rfl⟩
  · obtain ⟨rfl, hd⟩ := List.append_inj' hc rfl
    cases hd
    exact hg
  · rw [List.concat_eq_append, ← List.cons_append, ← List.append_assoc] at hc
    exact h before r c after (List.append_inj' hc rfl).1

theorem genuine_of_refused {key : Block 32}
    (h : CipherSuite.session.decrypt key (t.awaited role) cipher = none) :
    t.Genuine key role cipher := fun plain hp => by
  rw [h] at hp
  cases hp

omit [CipherSuite] in
/-- A message is opened, replayed, reflected and cut short, and another one waits. -/
theorem delivery_of_replay :
    ∃ (suite : CipherSuite) (secrets : Secrets) (calls : List Call),
      suite = .standard ∧ suite.session.Faithful ∧ Unforged secrets calls ∧
      (run secrets calls).said .initiator = [[104, 105], [111]] ∧
      (run secrets calls).opened .responder = [[104, 105]] ∧
      (run secrets calls).opened .responder <+: (run secrets calls).said .initiator ∧
      ∀ m, ((run secrets calls).sealed .initiator)[((run secrets calls).opened .responder).length]? =
          some m →
        (((run secrets calls).ends .responder).decrypt m.cipher).1 = .ok m.plain := by
  let suite := CipherSuite.standard
  let secrets : Secrets := ⟨⟨.zero 32⟩, ⟨.zero 16⟩⟩
  let nonce := SessionCrypt.nonce secrets.iv .initiator 0
  let c := (ChaChaPoly.long.encrypt secrets.key.block nonce [104, 105]).getD []
  have hf : suite.session.Faithful := ChaChaPoly.sound_long.faithful
  have h := (unforged_nil secrets).encrypt .initiator [104, 105]
  have h := h.decrypt .responder c fun _ _ =>
    ⟨.initiator, ⟨[104, 105], nonce, c⟩, by decide +kernel, by decide +kernel, rfl⟩
  have h := h.decrypt .responder c (genuine_of_refused (by decide +kernel))
  have h := h.decrypt .initiator c (genuine_of_refused (by decide +kernel))
  have h := h.decrypt .responder c.dropLast (genuine_of_refused (by decide +kernel))
  have h := h.encrypt .initiator [111]
  let calls : List Call := [.encrypt .initiator [104, 105], .decrypt .responder c,
    .decrypt .responder c, .decrypt .initiator c, .decrypt .responder c.dropLast,
    .encrypt .initiator [111]]
  have h : Unforged secrets calls := h
  have hs : (run secrets calls).said .initiator = [[104, 105], [111]] := by decide +kernel
  have ho : (run secrets calls).opened .responder = [[104, 105]] := by decide +kernel
  have hd := delivery hf h .responder
  rw [Role.other] at hd
  exact ⟨suite, secrets, calls, rfl, hf, h, hs, ho, hd⟩

end Conversation

end SealedChat
