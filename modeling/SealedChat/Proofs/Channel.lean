import SealedChat.Channel
import SealedChat.Proofs.Base64
import SealedChat.Proofs.Dialogue
import SealedChat.Proofs.SessionCipher

/-!
# What channels do on a line

The two channels of a connection, sealed to a key and encrypted in a session, over a line that
carries Base64 words. Each sends one line for a text, or none, and receives one text from a line.
-/

namespace SealedChat.Channel

theorem textOf_eq_ok_iff {payload : Bytes} {text : String} :
    textOf payload = .ok text ↔ payload = Utf8.encode text := by
  rw [← Utf8.decode?_eq_some_iff, textOf]
  cases Utf8.decode? payload <;> simp

/-- The bytes that a word on a line spells. -/
def unword (o : Outcome Bytes) : Outcome Bytes :=
  o.bind fun word => (Base64.decode? word).elim (.error .malformedBase64) .ok

theorem unword_eq_ok_iff {o : Outcome Bytes} {payload : Bytes} :
    unword o = .ok payload ↔ o = .ok (Base64.encodeLine payload) := by
  cases o with
  | error e => simp [unword, Except.bind]
  | ok word =>
    rw [Except.ok.injEq, ← Base64.decode?_eq_some_iff]
    cases h : Base64.decode? word <;> simp [unword, Except.bind, h]

variable [CipherSuite]

theorem receive_base64 (limit : Option Duration) :
    receive limit [.base64] = .receive limit fun o => .done (unword o, [.base64]) := by
  refine congrArg (Dialogue.receive limit) (funext fun o => ?_)
  cases o <;> rfl

/-! ## Sealed texts -/

/-- A text in a box on a line. -/
def unbox (own : PrivateKey) (o : Outcome Bytes) : Outcome String :=
  unword o >>= SealedBox.openWith own >>= textOf

theorem unbox_eq_ok_iff {own : PrivateKey} {o : Outcome Bytes} {text : String} :
    unbox own o = .ok text ↔ ∃ box, o = .ok (Base64.encodeLine box) ∧
      SealedBox.openWith own box = .ok (Utf8.encode text) := by
  simp only [unbox, Outcome.bind_eq_ok_iff, unword_eq_ok_iff, textOf_eq_ok_iff]
  constructor
  · rintro ⟨_, ⟨box, ho, hb⟩, rfl⟩
    exact ⟨box, ho, hb⟩
  · rintro ⟨box, ho, hb⟩
    exact ⟨_, ⟨box, ho, hb⟩, rfl⟩

/-- Sends a box, unless there is none. -/
def sendBox (keys : SealingKeys) : Outcome Bytes → Dialogue (Outcome Channel)
  | .ok box => .send (Base64.encodeLine box) fun o =>
    .done (o.map fun _ => [.asymmetric keys, .base64])
  | .error e => .done (.error e)

section

variable (keys : SealingKeys) (limit : Option Duration) (text : String)

theorem hear_asymmetric :
    hear [.asymmetric keys, .base64] limit = ExceptT.mk (.receive limit fun o =>
      .done ((unbox keys.own o).map (·, [.asymmetric keys, .base64]))) := by
  rw [hear, receive, receive_base64]
  refine congrArg (Dialogue.receive limit) (funext fun o => ?_)
  unfold unbox
  cases h : unword o with
  | error e =>
    simp only [Dialogue.bind, h]
    rfl
  | ok box =>
    cases h' : SealedBox.openWith keys.own box with
    | error e =>
      simp only [Dialogue.bind, h, bind, Except.bind, pure, h']
      rfl
    | ok p => simp only [Dialogue.bind, h, bind, Except.bind, pure, h']

theorem runs_hear_asymmetric_iff {es : List Dialogue.Event} {r : Outcome (String × Channel)} :
    (hear [.asymmetric keys, .base64] limit).run.Runs es r ↔ ∃ o, es = [.received limit o] ∧
      r = (unbox keys.own o).map (·, [.asymmetric keys, .base64]) := by
  rw [hear_asymmetric]
  simp only [ExceptT.run_mk, Dialogue.runs_receive_iff, Dialogue.runs_done_iff]
  constructor
  · rintro ⟨o, _, rfl, rfl, rfl⟩
    exact ⟨o, rfl, rfl⟩
  · rintro ⟨o, rfl, rfl⟩
    exact ⟨o, [], rfl, rfl, rfl⟩

theorem say_asymmetric {key : PublicKey} (h : keys.opposite = some key) :
    say [.asymmetric keys, .base64] text = ExceptT.mk
      (Dialogue.ofDraw (SealedBox.sealTo key (Utf8.encode text)).run >>= sendBox keys) := by
  rw [say, send, h]
  dsimp only
  rw [Dialogue.bind_assoc]
  refine congrArg (Dialogue.bind _) (funext fun o => ?_)
  cases o with
  | error e => rfl
  | ok box =>
    refine congrArg (Dialogue.send _) (funext fun o => ?_)
    cases o <;> rfl

/-- Sealing fails and nothing is sent, or one box is. -/
theorem runs_say_asymmetric {key : PublicKey} (h : keys.opposite = some key)
    {es : List Dialogue.Event} {r : Outcome Channel}
    (hr : (say [.asymmetric keys, .base64] text).run.Runs es r) :
    (∃ answers e, es = Dialogue.draws answers ∧ r = .error e) ∨
      ∃ answers box o, es = Dialogue.draws answers ++ [.sent (Base64.encodeLine box) o] ∧
        r = o.map (fun _ => [.asymmetric keys, .base64]) ∧
        (SealedBox.sealTo key (Utf8.encode text)).run.Runs answers (.ok box) := by
  rw [say_asymmetric keys text h, ExceptT.run_mk] at hr
  obtain ⟨es₁, es₂, e | box, rfl, h₁, h₂⟩ := Dialogue.runs_bind_iff.1 hr
  · obtain ⟨answers, rfl, -⟩ := Dialogue.runs_ofDraw_iff.1 h₁
    obtain ⟨rfl, rfl⟩ := Dialogue.runs_done_iff.1 h₂
    exact .inl ⟨answers, e, by rw [List.append_nil], rfl⟩
  · obtain ⟨answers, rfl, hs⟩ := Dialogue.runs_ofDraw_iff.1 h₁
    obtain ⟨o, rest, rfl, h₃⟩ := Dialogue.runs_send_iff.1 h₂
    obtain ⟨rfl, rfl⟩ := Dialogue.runs_done_iff.1 h₃
    exact .inr ⟨answers, box, o, rfl, rfl, hs⟩

/-- Sealing fails; or one box is sent, and what comes next is done if it was sent well. -/
theorem runs_say_asymmetric_bind {β : Type} {key : PublicKey} (h : keys.opposite = some key)
    {f : Channel → Exchange β} {es : List Dialogue.Event} {r : Outcome β}
    (hr : (say [.asymmetric keys, .base64] text >>= f).run.Runs es r) :
    (∃ answers e, es = Dialogue.draws answers ∧ r = .error e) ∨
      ∃ answers box o rest, es = Dialogue.draws answers ++ .sent (Base64.encodeLine box) o :: rest ∧
        (SealedBox.sealTo key (Utf8.encode text)).run.Runs answers (.ok box) ∧
        ((rest = [] ∧ ∃ e, r = .error e ∧ o = .error e) ∨
          o = .ok () ∧ (f [.asymmetric keys, .base64]).run.Runs rest r) := by
  rcases Exchange.runs_bind_iff.1 hr with ⟨e, rfl, h₁⟩ | ⟨es₁, es₂, chain, rfl, h₁, h₂⟩
  · rcases runs_say_asymmetric keys _ h h₁ with
      ⟨answers, _, rfl, -⟩ | ⟨answers, box, o, rfl, ho, hseal⟩
    · exact .inl ⟨answers, e, rfl, rfl⟩
    · cases o with
      | error e' =>
        cases ho
        exact .inr ⟨answers, box, .error e, [], rfl, hseal, .inl ⟨rfl, e, rfl, rfl⟩⟩
      | ok u => cases ho
  · rcases runs_say_asymmetric keys _ h h₁ with ⟨_, _, -, he⟩ | ⟨answers, box, o, rfl, ho, hseal⟩
    · cases he
    · cases o with
      | error e => cases ho
      | ok u =>
        cases ho
        refine .inr ⟨answers, box, .ok u, es₂, ?_, hseal, .inr ⟨rfl, h₂⟩⟩
        rw [List.append_assoc]
        rfl

end

/-! ## Encrypted texts -/

/-- A text in a ciphertext on a line, and the cipher after it. -/
def decipher (cipher : SessionCipher) (o : Outcome Bytes) : Outcome (String × SessionCipher) := do
  let c ← unword o
  let text ← (cipher.decrypt c).1 >>= textOf
  return (text, (cipher.decrypt c).2)

theorem decipher_eq_ok_iff {cipher cipher' : SessionCipher} {o : Outcome Bytes} {text : String} :
    decipher cipher o = .ok (text, cipher') ↔ ∃ c, o = .ok (Base64.encodeLine c) ∧
      SessionCrypt.decrypt cipher.secrets cipher.role.other cipher.received c =
        .ok (Utf8.encode text) ∧ cipher' = { cipher with received := cipher.received + 1 } := by
  simp only [decipher, Outcome.bind_eq_ok_iff, unword_eq_ok_iff, textOf_eq_ok_iff]
  constructor
  · rintro ⟨c, ho, _, ⟨_, hd, rfl⟩, h⟩
    cases h
    rcases cipher.decrypt_cases c with ⟨plain, hp, hc⟩ | ⟨e, hc⟩
    · rw [hc] at hd ⊢
      cases hd
      exact ⟨c, ho, hp, rfl⟩
    · rw [hc] at hd
      cases hd
  · rintro ⟨c, ho, hp, rfl⟩
    have hd := SessionCipher.decrypt_of_ok hp
    exact ⟨c, ho, text, ⟨_, by rw [hd], rfl⟩, by rw [hd]; rfl⟩

/-- Sends a ciphertext, unless there is none. -/
def sendCipher : Outcome Bytes × SessionCipher → Dialogue (Outcome Channel)
  | (.ok c, cipher) => .send (Base64.encodeLine c) fun o =>
    .done (o.map fun _ => [.symmetric cipher, .base64])
  | (.error e, _) => .done (.error e)

section

variable (cipher : SessionCipher) (limit : Option Duration) (text : String)

theorem hear_symmetric :
    hear [.symmetric cipher, .base64] limit = ExceptT.mk (.receive limit fun o =>
      .done ((decipher cipher o).map fun p => (p.1, [.symmetric p.2, .base64]))) := by
  rw [hear, receive, receive_base64]
  refine congrArg (Dialogue.receive limit) (funext fun o => ?_)
  unfold decipher
  cases h : unword o with
  | error e =>
    simp only [Dialogue.bind, h]
    rfl
  | ok c =>
    rcases h' : cipher.decrypt c with ⟨e | p, cipher'⟩
    · simp only [Dialogue.bind, h, bind, Except.bind, pure, h']
      rfl
    · simp only [Dialogue.bind, h, bind, Except.bind, pure, h']
      cases textOf p <;> rfl

theorem runs_hear_symmetric_iff {es : List Dialogue.Event} {r : Outcome (String × Channel)} :
    (hear [.symmetric cipher, .base64] limit).run.Runs es r ↔ ∃ o, es = [.received limit o] ∧
      r = (decipher cipher o).map fun p => (p.1, [.symmetric p.2, .base64]) := by
  rw [hear_symmetric]
  simp only [ExceptT.run_mk, Dialogue.runs_receive_iff, Dialogue.runs_done_iff]
  constructor
  · rintro ⟨o, _, rfl, rfl, rfl⟩
    exact ⟨o, rfl, rfl⟩
  · rintro ⟨o, rfl, rfl⟩
    exact ⟨o, [], rfl, rfl, rfl⟩

theorem say_symmetric :
    say [.symmetric cipher, .base64] text =
      ExceptT.mk (sendCipher (cipher.encrypt (Utf8.encode text))) := by
  rw [say, send]
  rcases cipher.encrypt (Utf8.encode text) with ⟨e | c, cipher'⟩
  · rfl
  · refine congrArg (Dialogue.send _) (funext fun o => ?_)
    cases o <;> rfl

/-- Encryption fails and nothing is sent, or one ciphertext is. -/
theorem runs_say_symmetric {es : List Dialogue.Event} {r : Outcome Channel}
    (hr : (say [.symmetric cipher, .base64] text).run.Runs es r) :
    (∃ e, es = [] ∧ r = .error e) ∨
      ∃ c o, es = [.sent (Base64.encodeLine c) o] ∧
        r = o.map (fun _ => [.symmetric { cipher with sent := cipher.sent + 1 }, .base64]) ∧
        SessionCrypt.encrypt cipher.secrets cipher.role cipher.sent (Utf8.encode text) = .ok c := by
  rw [say_symmetric, ExceptT.run_mk] at hr
  rcases cipher.encrypt_cases (Utf8.encode text) with ⟨c, hc, heq⟩ | ⟨e, heq⟩
  · rw [heq] at hr
    obtain ⟨o, rest, rfl, h⟩ := Dialogue.runs_send_iff.1 hr
    obtain ⟨rfl, rfl⟩ := Dialogue.runs_done_iff.1 h
    exact .inr ⟨c, o, rfl, rfl, hc⟩
  · rw [heq] at hr
    obtain ⟨rfl, rfl⟩ := Dialogue.runs_done_iff.1 hr
    exact .inl ⟨e, rfl, rfl⟩

end

end SealedChat.Channel
