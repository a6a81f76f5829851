import SealedChat.Proofs.History
import SealedChat.Proofs.SessionCipher

/-!
# A cipher is the two functions, told its positions

One cipher is called to encrypt and to decrypt, in any order, and any of the calls may fail. What it
answers is a `History` of its turns.

**The reference** (`Call.stateless`). The functions that are told the number of a message know of no
cipher. For them a run is only what has been called so far: the number of a call is how many calls of
its way have succeeded before it.

**The simulation** (`Stands`). The counters of the cipher are these two numbers. A turn that succeeds
moves the counter of its way, and one that fails moves neither (`call_eq`), so the turns keep it.

Main result: `refines_stateless`. It needs no law of the cipher that is run underneath: whatever it
accepts and refuses, the counters move along with the answers.
-/

namespace SealedChat

namespace SessionCipher

/-! ## Calls -/

/-- Out, or in. -/
inductive Way where
  | sealing
  | opening
deriving DecidableEq

inductive Call where
  | encrypt (plain : Bytes)
  | decrypt (cipher : Bytes)

def Call.way : Call → Way
  | .encrypt _ => .sealing
  | .decrypt _ => .opening

/-- A call, and what it has answered. -/
structure Turn where
  call : Call
  answer : Outcome Bytes

/-- A call of this way succeeded. -/
def Turn.passes (way : Way) (t : Turn) : Bool := t.call.way = way && t.answer.isOk

/-- The calls of one way that succeeded, the first first. -/
def passed (way : Way) (turns : List Turn) : List Turn := turns.filter (Turn.passes way)

/-- The number that the next message of a way gets. -/
def position (s : SessionCipher) : Way → Nat
  | .sealing => s.sent
  | .opening => s.received

/-- The cipher after one more message of a way. -/
def advance (s : SessionCipher) : Way → SessionCipher
  | .sealing => { s with sent := s.sent + 1 }
  | .opening => { s with received := s.received + 1 }

/-! ## What the turns so far tell -/

variable {t : Turn} {turns : List Turn}

theorem passed_snoc_of_passes {way : Way} (h : t.passes way = true) :
    passed way (turns ++ [t]) = passed way turns ++ [t] := by
  rw [passed, List.filter_append, List.filter_singleton, h]
  rfl

theorem passed_snoc_of_not_passes {way : Way} (h : t.passes way = false) :
    passed way (turns ++ [t]) = passed way turns := by
  rw [passed, List.filter_append, List.filter_singleton, h]
  exact List.append_nil _

/-- The cipher of these secrets and role after these turns. -/
def after (secrets : Secrets) (role : Role) (turns : List Turn) : SessionCipher :=
  ⟨secrets, role, (passed .sealing turns).length, (passed .opening turns).length⟩

theorem position_after (secrets : Secrets) (role : Role) (turns : List Turn) (way : Way) :
    (after secrets role turns).position way = (passed way turns).length := by
  cases way <;> rfl

/-- A turn that succeeded is one more of its way, and none of the other. -/
theorem after_snoc_of_ok (secrets : Secrets) (role : Role) (turns : List Turn)
    (h : t.answer.isOk = true) :
    after secrets role (turns ++ [t]) = (after secrets role turns).advance t.call.way := by
  cases hw : t.call.way with
  | sealing =>
    have hout : t.passes .sealing = true := by simp [Turn.passes, hw, h]
    have hin : t.passes .opening = false := by simp [Turn.passes, hw]
    rw [after, passed_snoc_of_passes hout, passed_snoc_of_not_passes hin, List.length_append]
    rfl
  | opening =>
    have hout : t.passes .sealing = false := by simp [Turn.passes, hw]
    have hin : t.passes .opening = true := by simp [Turn.passes, hw, h]
    rw [after, passed_snoc_of_not_passes hout, passed_snoc_of_passes hin, List.length_append]
    rfl

theorem passed_snoc_of_error (h : t.answer.isOk = false) (way : Way) :
    passed way (turns ++ [t]) = passed way turns :=
  passed_snoc_of_not_passes (by simp [Turn.passes, h])

theorem after_snoc_of_error (secrets : Secrets) (role : Role) (turns : List Turn)
    (h : t.answer.isOk = false) : after secrets role (turns ++ [t]) = after secrets role turns := by
  rw [after, passed_snoc_of_error h, passed_snoc_of_error h]
  rfl

/-! ## Turns -/

variable [CipherSuite]

/-- What the functions answer that are told the number of the message and who has sent it. -/
def Call.stateless (secrets : Secrets) (role : Role) (k : Nat) : Call → Outcome Bytes
  | .encrypt plain => SessionCrypt.encrypt secrets role k plain
  | .decrypt cipher => SessionCrypt.decrypt secrets role.other k cipher

def call (s : SessionCipher) : Call → Outcome Bytes × SessionCipher
  | .encrypt plain => s.encrypt plain
  | .decrypt cipher => s.decrypt cipher

/-- The turns that a cipher takes for a list of calls, and the cipher after them. -/
def run (s : SessionCipher) : List Call → List Turn × SessionCipher
  | [] => ([], s)
  | c :: calls =>
    let (answer, m) := s.call c
    let (turns, s') := m.run calls
    (⟨c, answer⟩ :: turns, s')

/-- The turn that a cipher can take, and the cipher after it. -/
def Takes (s : SessionCipher) (t : Turn) (s' : SessionCipher) : Prop :=
  s.call t.call = (t.answer, s')

variable {s s' : SessionCipher}

/-- **One call**: the answer of the stateless function, and one step of its way if there is one. -/
theorem call_eq (s : SessionCipher) (c : Call) : s.call c =
    match c.stateless s.secrets s.role (s.position c.way) with
    | .ok bytes => (.ok bytes, s.advance c.way)
    | .error e => (.error e, s) := by
  cases c with
  | encrypt plain => exact s.encrypt_eq plain
  | decrypt cipher => exact s.decrypt_eq cipher

theorem call_of_ok {c : Call} {bytes : Bytes}
    (h : c.stateless s.secrets s.role (s.position c.way) = .ok bytes) :
    s.call c = (.ok bytes, s.advance c.way) := by
  rw [call_eq, h]

theorem call_of_error {c : Call} {e : ChatError}
    (h : c.stateless s.secrets s.role (s.position c.way) = .error e) :
    s.call c = (.error e, s) := by
  rw [call_eq, h]

/-- A call that fails leaves the cipher as it is. -/
theorem call_of_failed {c : Call} {e : ChatError} (h : (s.call c).1 = .error e) :
    (s.call c).2 = s := by
  cases hc : c.stateless s.secrets s.role (s.position c.way) with
  | error e => rw [call_of_error hc]
  | ok bytes =>
    rw [call_of_ok hc] at h
    cases h

theorem Takes.cases (h : s.Takes t s') :
    t.answer = t.call.stateless s.secrets s.role (s.position t.call.way) ∧
      (t.answer.isOk = true ∧ s' = s.advance t.call.way ∨ t.answer.isOk = false ∧ s' = s) := by
  have hcall : s.call t.call = (t.answer, s') := h
  cases hc : t.call.stateless s.secrets s.role (s.position t.call.way) with
  | ok bytes =>
    obtain ⟨ha, hs⟩ := Prod.mk.inj (hcall.symm.trans (call_of_ok hc))
    exact ⟨ha, .inl ⟨by rw [ha]; rfl, hs⟩⟩
  | error e =>
    obtain ⟨ha, hs⟩ := Prod.mk.inj (hcall.symm.trans (call_of_error hc))
    exact ⟨ha, .inr ⟨by rw [ha]; rfl, hs⟩⟩

theorem run_cons (s : SessionCipher) (c : Call) (calls : List Call) :
    s.run (c :: calls) = (⟨c, (s.call c).1⟩ :: ((s.call c).2.run calls).1,
      ((s.call c).2.run calls).2) := rfl

theorem map_call_run (s : SessionCipher) (calls : List Call) :
    (s.run calls).1.map Turn.call = calls := by
  induction calls generalizing s with
  | nil => rfl
  | cons c calls ih => rw [run_cons, List.map_cons, ih]

theorem history_run (s : SessionCipher) (calls : List Call) :
    History Takes s (s.run calls).1 (s.run calls).2 := by
  induction calls generalizing s with
  | nil => exact .nil s
  | cons c calls ih => exact .cons rfl (ih (s.call c).2)

/-! ## The positions -/

/-- What has been called so far tells where the cipher stands, and the `k`-th call of a way that
succeeded was answered as the stateless function answers for `k`. -/
structure Stands (secrets : Secrets) (role : Role) (turns : List Turn) (s : SessionCipher) : Prop where
  state : s = after secrets role turns
  answers : ∀ way k (t : Turn), (passed way turns)[k]? = some t →
    t.call.way = way ∧ t.answer = t.call.stateless secrets role k

variable {secrets : Secrets} {role : Role}

theorem stands_new (secrets : Secrets) (role : Role) : Stands secrets role [] (new secrets role) where
  state := rfl
  answers _ _ _ h := by simp [passed] at h

theorem Stands.answer_eq (hs : Stands secrets role turns s) (h : s.Takes t s') :
    t.answer = t.call.stateless secrets role (passed t.call.way turns).length := by
  have ha := h.cases.1
  rw [hs.state, position_after] at ha
  exact ha

/-- Every turn keeps the positions. -/
theorem Stands.turn (hs : Stands secrets role turns s) (h : s.Takes t s') :
    Stands secrets role (turns ++ [t]) s' := by
  obtain ⟨hok, hs'⟩ | ⟨herror, hs'⟩ := h.cases.2
  · refine ⟨by rw [hs', after_snoc_of_ok secrets role turns hok, hs.state], ?_⟩
    intro way k u hu
    by_cases hw : t.call.way = way
    · rw [passed_snoc_of_passes (by simp [Turn.passes, hw, hok])] at hu
      rcases of_getElem?_snoc hu with hpast | ⟨rfl, rfl⟩
      · exact hs.answers way k u hpast
      · refine ⟨hw, ?_⟩
        rw [← hw]
        exact hs.answer_eq h
    · rw [passed_snoc_of_not_passes (by simp [Turn.passes, hw])] at hu
      exact hs.answers way k u hu
  · refine ⟨by rw [hs', after_snoc_of_error secrets role turns herror, hs.state], ?_⟩
    intro way k u hu
    rw [passed_snoc_of_error herror] at hu
    exact hs.answers way k u hu

theorem stands (h : History Takes (new secrets role) turns s) : Stands secrets role turns s := by
  have := h.keeps (P := Stands secrets role) (fun _ _ _ _ hs ht => hs.turn ht)
    (stands_new secrets role)
  rwa [List.nil_append] at this

/-! ## Seals and opens -/

/-- Two ciphers that a way cannot tell apart. -/
structure Alike (way : Way) (s s' : SessionCipher) : Prop where
  secrets : s.secrets = s'.secrets
  role : s.role = s'.role
  position : s.position way = s'.position way

/-- A call answers by its own way, and leaves the other way alone. -/
theorem Alike.call {way : Way} {c : Call} (h : Alike way s s') (hc : c.way = way) :
    (s.call c).1 = (s'.call c).1 ∧ Alike way (s.call c).2 (s'.call c).2 := by
  subst hc
  have hsame : c.stateless s'.secrets s'.role (s'.position c.way) =
      c.stateless s.secrets s.role (s.position c.way) := by rw [h.secrets, h.role, h.position]
  cases hcall : c.stateless s.secrets s.role (s.position c.way) with
  | error e =>
    rw [call_of_error hcall, call_of_error (hsame.trans hcall)]
    exact ⟨rfl, h⟩
  | ok bytes =>
    rw [call_of_ok hcall, call_of_ok (hsame.trans hcall)]
    refine ⟨rfl, ?_⟩
    have hposition := h.position
    cases hw : c.way with
    | sealing =>
      rw [hw] at hposition
      exact ⟨h.secrets, h.role, congrArg (· + 1) hposition⟩
    | opening =>
      rw [hw] at hposition
      exact ⟨h.secrets, h.role, congrArg (· + 1) hposition⟩

theorem alike_call {way : Way} {c : Call} (hc : c.way ≠ way) : Alike way (s.call c).2 s := by
  cases hcall : c.stateless s.secrets s.role (s.position c.way) with
  | error e =>
    rw [call_of_error hcall]
    exact ⟨rfl, rfl, rfl⟩
  | ok bytes =>
    rw [call_of_ok hcall]
    cases hw : c.way <;> cases way <;> first | exact absurd hw hc | exact ⟨rfl, rfl, rfl⟩

/-- The turns of one way are those of a cipher that was only called in this way. -/
theorem Alike.run {way : Way} (h : Alike way s s') (calls : List Call) :
    (s.run calls).1.filter (fun t => t.call.way = way) =
      (s'.run (calls.filter fun c => c.way = way)).1 := by
  induction calls generalizing s s' with
  | nil => rfl
  | cons c calls ih =>
    by_cases hc : c.way = way
    · obtain ⟨hanswer, hnext⟩ := h.call hc
      simp only [List.filter_cons, run_cons, hc, decide_true, if_true]
      rw [hanswer, ih hnext]
    · have hskip : Alike way (s.call c).2 s' := by
        obtain ⟨hsecrets, hrole, hposition⟩ := alike_call (s := s) hc
        exact ⟨hsecrets.trans h.secrets, hrole.trans h.role, hposition.trans h.position⟩
      simp only [List.filter_cons, run_cons, hc, decide_false, Bool.false_eq_true, if_false]
      exact ih hskip

/-! ## The theorem -/

/-- How the run of a cipher belongs to the functions that are told the number of a message. -/
structure Refines (secrets : Secrets) (role : Role) (calls : List Call) : Prop where
  /-- Every call is answered, in order. -/
  complete : ((new secrets role).run calls).1.map Turn.call = calls
  /-- An answer is that of the stateless function, for as many calls of its way as have succeeded
  before. -/
  answers : ∀ before (t : Turn) rest, ((new secrets role).run calls).1 = before ++ t :: rest →
    t.answer = t.call.stateless secrets role (passed t.call.way before).length
  /-- The `k`-th call of a way that succeeded is message `k`. -/
  numbers : ∀ way k (t : Turn), (passed way ((new secrets role).run calls).1)[k]? = some t →
    t.call.way = way ∧ t.answer = t.call.stateless secrets role k
  /-- The counters are the numbers of calls that succeeded. -/
  state : ((new secrets role).run calls).2 = after secrets role ((new secrets role).run calls).1
  /-- Of whatever is called next, a failure leaves the cipher as it is. -/
  failure : ∀ c e, (((new secrets role).run calls).2.call c).1 = .error e →
    (((new secrets role).run calls).2.call c).2 = ((new secrets role).run calls).2
  /-- What is answered to the calls of one way is answered without the calls of the other, too. -/
  apart : ∀ way, ((new secrets role).run calls).1.filter (fun t => t.call.way = way) =
    ((new secrets role).run (calls.filter fun c => c.way = way)).1

/-- **The cipher refines the stateless functions**, whatever it is called to encrypt and to
decrypt. -/
theorem refines_stateless (secrets : Secrets) (role : Role) (calls : List Call) :
    Refines secrets role calls := by
  have h := history_run (new secrets role) calls
  refine ⟨map_call_run _ _, fun before t rest hturns => ?_, (stands h).answers, (stands h).state,
    fun c e he => ?_, fun way => Alike.run ⟨rfl, rfl, rfl⟩ calls⟩
  · obtain ⟨m, m', hbefore, ht, -⟩ := History.turn_iff.1 (hturns ▸ h)
    exact (stands hbefore).answer_eq ht
  · exact call_of_failed he

end SessionCipher

end SealedChat
