import SealedChat.Proofs.Channel
import SealedChat.Proofs.SealedBox
import SealedChat.Proofs.Tagged

/-!
# Layers, one at a time

A channel sends a payload by lowering it through its layers, and receives one by lifting what the
line answers with through the same layers (`Channel.send_cons`, `Channel.receive_eq`).

A payload that a layer lowers is changed in one way for each kind of layer (`Layer.Lowers`), and moves
the layer on; if it is not lowered, the layer stays as it is (`Layer.lowered`). One layer carries to
another if it holds the same keys, in the other role, and has sealed as many messages as the other
has opened: what it lowers, the other lifts to the payload that it was (`Layer.Carries.lift`). Two
layers mirror each other if they carry to each other, and they mirror each other still after that
(`Layer.Mirrors.lower`).
-/

namespace SealedChat

theorem Dialogue.ofDraw_bind {α β : Type} (d : Draw α) (f : α → Draw β) :
    ofDraw (d >>= f) = ofDraw d >>= fun a => ofDraw (f a) := by
  induction d with
  | done a => rfl
  | fill n next ih => exact congrArg (fill n) (funext ih)

theorem Draw.runs_map_iff {α β : Type} {d : Draw α} {f : α → β} {answers : List Draw.Answer} {b : β} :
    (d >>= fun a => pure (f a)).Runs answers b ↔ ∃ a, d.Runs answers a ∧ b = f a := by
  induction d generalizing answers with
  | done a =>
    constructor
    · intro h
      obtain ⟨rfl, rfl⟩ := Draw.runs_done_iff.1 h
      exact ⟨a, .done a, rfl⟩
    · rintro ⟨a', h, rfl⟩
      obtain ⟨rfl, rfl⟩ := Draw.runs_done_iff.1 h
      exact .done _
  | fill n next ih =>
    constructor
    · intro h
      obtain ⟨o, rest, rfl, hnext⟩ := Draw.runs_fill_iff.1 h
      obtain ⟨a, ha, rfl⟩ := (ih o).1 hnext
      exact ⟨a, .fill o ha, rfl⟩
    · rintro ⟨a, h, rfl⟩
      obtain ⟨o, rest, rfl, hnext⟩ := Draw.runs_fill_iff.1 h
      exact .fill o ((ih o).2 ⟨a, hnext, rfl⟩)

/-- What is known of the end of every course is known whatever is drawn. -/
theorem Draw.always_of_runs {α : Type} {P : α → Prop} {d : Draw α}
    (h : ∀ answers a, d.Runs answers a → P a) : d.Always P := by
  induction d with
  | done a => exact h [] a (.done a)
  | fill n next ih =>
    intro b
    exact ih (some b) fun answers a ha => h _ a (.fill (some b) ha)

variable [CipherSuite]

namespace Layer

/-- What a layer makes of a payload on its way down, and the layer after it. -/
def lower : Layer → Bytes → Draw (Outcome Bytes × Layer)
  | base64, payload => return (.ok (Base64.encodeLine payload), base64)
  | symmetric cipher, payload =>
    return ((cipher.encrypt payload).1, symmetric (cipher.encrypt payload).2)
  | asymmetric keys, payload =>
    match keys.opposite with
    | none => return (.error .noOppositeKey, asymmetric keys)
    | some recipient => do return (← (SealedBox.sealTo recipient payload).run, asymmetric keys)
  | integrity key, payload => return (.ok (Tagged.line key payload), integrity key)

/-- What a layer makes of what comes up, and the layer after it. -/
def lift : Layer → Bytes → Outcome Bytes × Layer
  | base64, word => ((Base64.decode? word).elim (.error .malformedBase64) .ok, base64)
  | symmetric cipher, c => ((cipher.decrypt c).1, symmetric (cipher.decrypt c).2)
  | asymmetric keys, box => (SealedBox.openWith keys.own box, asymmetric keys)
  | integrity key, line =>
    match Tagged.verify key line with
    | .authentic payload => (.ok payload, integrity key)
    | .tampered payload => (.error (.integrityMismatch (Utf8.decodeLossy payload)), integrity key)

/-- The layers hold the same keys, each in its own role, and have counted the same messages. -/
def Mirrors : Layer → Layer → Prop
  | base64, base64 => True
  | symmetric cipher, symmetric cipher' =>
    cipher'.secrets = cipher.secrets ∧ cipher'.role = cipher.role.other ∧
      cipher'.received = cipher.sent ∧ cipher'.sent = cipher.received
  | asymmetric keys, asymmetric keys' =>
    keys.opposite = some keys'.own.publicKey ∧ keys'.opposite = some keys.own.publicKey
  | integrity key, integrity key' => key' = key
  | _, _ => False

/-! ### On the way down -/

/-- The layer may lower a payload to these bytes. -/
def Lowers : Layer → Bytes → Bytes → Prop
  | base64, payload, below => below = Base64.encodeLine payload
  | symmetric cipher, payload, below =>
    SessionCrypt.encrypt cipher.secrets cipher.role cipher.sent payload = .ok below
  | asymmetric keys, payload, below =>
    ∃ recipient, keys.opposite = some recipient ∧ SealedBox.Seals recipient payload below
  | integrity key, payload, below => below = Tagged.line key payload

/-- The layer after one more payload has gone down. -/
def advanced : Layer → Layer
  | symmetric cipher => symmetric { cipher with sent := cipher.sent + 1 }
  | layer => layer

/-- The layer after one more payload has come up. -/
def raised : Layer → Layer
  | symmetric cipher => symmetric { cipher with received := cipher.received + 1 }
  | layer => layer

variable {x y x' : Layer} {payload below : Bytes} {answers : List Draw.Answer} {o : Outcome Bytes}

/-- **A layer lowers a payload**, or fails and stays as it is. -/
theorem lowered (h : (x.lower payload).Runs answers (o, x')) :
    (∃ e, o = .error e ∧ x' = x) ∨ ∃ below, o = .ok below ∧ x.Lowers payload below ∧
      x' = x.advanced := by
  cases x with
  | base64 =>
    obtain ⟨-, heq⟩ := Draw.runs_done_iff.1 h
    obtain ⟨rfl, rfl⟩ := Prod.mk.inj heq
    exact .inr ⟨_, rfl, rfl, rfl⟩
  | symmetric cipher =>
    obtain ⟨-, heq⟩ := Draw.runs_done_iff.1 h
    obtain ⟨rfl, rfl⟩ := Prod.mk.inj heq
    rcases cipher.encrypt_cases payload with ⟨below, hbelow, heq⟩ | ⟨e, heq⟩
    · rw [heq]
      exact .inr ⟨below, rfl, hbelow, rfl⟩
    · rw [heq]
      exact .inl ⟨e, rfl, rfl⟩
  | asymmetric keys =>
    rw [lower] at h
    cases hkey : keys.opposite with
    | none =>
      rw [hkey] at h
      obtain ⟨-, heq⟩ := Draw.runs_done_iff.1 h
      obtain ⟨rfl, rfl⟩ := Prod.mk.inj heq
      exact .inl ⟨_, rfl, rfl⟩
    | some recipient =>
      rw [hkey] at h
      obtain ⟨o', hseal, heq⟩ := Draw.runs_map_iff.1 h
      obtain ⟨rfl, rfl⟩ := Prod.mk.inj heq
      cases o with
      | error e => exact .inl ⟨e, rfl, rfl⟩
      | ok box => exact .inr ⟨box, rfl, ⟨recipient, hkey, answers, hseal⟩, rfl⟩
  | integrity key =>
    obtain ⟨-, heq⟩ := Draw.runs_done_iff.1 h
    obtain ⟨rfl, rfl⟩ := Prod.mk.inj heq
    exact .inr ⟨_, rfl, rfl, rfl⟩

/-- No layer fails as a line does that the stream does not take. -/
theorem ne_brokenPipe_of_lower {e : ChatError}
    (h : (x.lower payload).Runs answers (.error e, x')) : e ≠ .brokenPipe := by
  cases x with
  | base64 => cases (Draw.runs_done_iff.1 h).2
  | symmetric cipher =>
    have he := congrArg Prod.fst (Draw.runs_done_iff.1 h).2
    dsimp only at he
    unfold SessionCipher.encrypt SessionCrypt.nonceFor at he
    split_ifs at he
    · dsimp only at he
      split at he <;> cases he
      decide
    · cases he
      decide
  | asymmetric keys =>
    rw [lower] at h
    cases hkey : keys.opposite with
    | none =>
      rw [hkey] at h
      cases (Draw.runs_done_iff.1 h).2
      decide
    | some recipient =>
      rw [hkey] at h
      obtain ⟨o, hseal, heq⟩ := Draw.runs_map_iff.1 h
      obtain rfl := (Prod.mk.inj heq).1
      generalize ho : Except.error e = o at hseal
      cases SealedBox.runs_sealTo_iff.1 hseal with
      | drawn _ oneTime nonce =>
        unfold SealedBox.sealWith at ho
        split at ho <;> cases ho
        decide
      | _ =>
        cases ho
        exact fun hne => by cases hne
  | integrity key => cases (Draw.runs_done_iff.1 h).2

/-! ### On the way up -/

/-- What one layer lowers, the other lifts. Of what goes the other way nothing is said. -/
def Carries : Layer → Layer → Prop
  | base64, base64 => True
  | symmetric cipher, symmetric cipher' =>
    cipher'.secrets = cipher.secrets ∧ cipher'.role = cipher.role.other ∧
      cipher'.received = cipher.sent
  | asymmetric keys, asymmetric keys' => ∀ key, keys.opposite = some key → key = keys'.own.publicKey
  | integrity key, integrity key' => key' = key
  | _, _ => False

/-- **What a layer lowers, the layer that it carries to lifts.** -/
theorem Carries.lift (hs : CipherSuite.Lawful) (h : x.Carries y) (hl : x.Lowers payload below) :
    y.lift below = (.ok payload, y.raised) := by
  cases x with
  | base64 =>
    cases y with
    | base64 =>
      cases hl
      simp [Layer.lift, raised]
    | _ => exact h.elim
  | symmetric cipher =>
    cases y with
    | symmetric cipher' =>
      obtain ⟨hsecrets, hrole, hcount⟩ := h
      have hd : SessionCrypt.decrypt cipher'.secrets cipher'.role.other cipher'.received below =
          .ok payload := by
        rw [hsecrets, hrole, hcount, Role.other_other]
        exact SessionCrypt.decrypt_of_encrypt hs hl
      rw [Layer.lift, SessionCipher.decrypt_of_ok hd, raised]
    | _ => exact h.elim
  | asymmetric keys =>
    cases y with
    | asymmetric keys' =>
      obtain ⟨recipient, hkey, hseal⟩ := hl
      obtain rfl := h recipient hkey
      rw [Layer.lift, hseal.openWith hs]
      rfl
    | _ => exact h.elim
  | integrity key =>
    cases y with
    | integrity key' =>
      cases h
      cases hl
      rw [Layer.lift, Tagged.verify_line]
      rfl
    | _ => exact h.elim

theorem Carries.moved (h : x.Carries y) : x.advanced.Carries y.raised := by
  cases x <;> cases y <;> simp only [Carries] at h
  · trivial
  · exact ⟨h.1, h.2.1, congrArg (· + 1) h.2.2⟩
  · exact h
  · exact h

/-- What goes down counts for one direction only. -/
theorem Carries.advanced (h : y.Carries x) : y.Carries x.advanced := by
  cases x <;> cases y <;> exact h

/-! ### Both ways -/

theorem Mirrors.carries (h : x.Mirrors y) : x.Carries y := by
  cases x <;> cases y <;> simp only [Mirrors] at h
  · trivial
  · exact ⟨h.1, h.2.1, h.2.2.1⟩
  · intro key hkey
    exact Option.some.inj (hkey.symm.trans h.1)
  · exact h

theorem Mirrors.moved (h : x.Mirrors y) : x.advanced.Mirrors y.raised := by
  cases x <;> cases y <;> simp only [Mirrors] at h
  · trivial
  · exact ⟨h.1, h.2.1, congrArg (· + 1) h.2.2.1, h.2.2.2⟩
  · exact h
  · exact h

/-- **What a layer lowers, its mirror lifts.** -/
theorem Mirrors.lower (hs : CipherSuite.Lawful) {x y : Layer} (h : x.Mirrors y) (payload : Bytes) :
    (x.lower payload).Always fun r => ∀ c, r.1 = .ok c →
      ∃ y', y.lift c = (.ok payload, y') ∧ r.2.Mirrors y' := by
  apply Draw.always_of_runs
  rintro answers ⟨o, x'⟩ hr c rfl
  obtain ⟨_, hfail, -⟩ | ⟨below, hok, hbelow, rfl⟩ := lowered hr
  · cases hfail
  · cases hok
    exact ⟨y.raised, h.carries.lift hs hbelow, h.moved⟩

end Layer

namespace Channel

/-- The channels mirror each other layer by layer. -/
def Mirrors : Channel → Channel → Prop := List.Forall₂ Layer.Mirrors

/-- What a channel makes of what its line answers with. -/
def lift : Channel → Outcome Bytes → Outcome Bytes × Channel
  | [], o => (o, [])
  | layer :: inner, o =>
    match lift inner o with
    | (.ok payload, inner) => ((layer.lift payload).1, (layer.lift payload).2 :: inner)
    | (.error e, inner) => (.error e, layer :: inner)

/-- A line without an answer gives the channel none. -/
@[simp] theorem lift_error (c : Channel) (e : ChatError) :
    lift c (.error e) = (.error e, c) := by
  induction c with
  | nil => rfl
  | cons layer inner ih => rw [lift, ih]

theorem lift_cons_of_ok {layer : Layer} {inner inner' : Channel} {o : Outcome Bytes}
    {payload : Bytes} (h : lift inner o = (.ok payload, inner')) :
    lift (layer :: inner) o = ((layer.lift payload).1, (layer.lift payload).2 :: inner') := by
  rw [lift, h]

/-- Receiving is waiting for one answer of the line. -/
theorem receive_eq (limit : Option Duration) (c : Channel) :
    c.receive limit = .receive limit fun o => .done (lift c o) := by
  induction c with
  | nil => rfl
  | cons layer inner ih =>
    cases layer
    all_goals
      rw [receive, ih]
      refine congrArg (Dialogue.receive limit) (funext fun o => ?_)
      rw [lift]
      simp only [Dialogue.bind]
      rcases lift inner o with ⟨e | payload, inner'⟩
      · rfl
    · rfl
    · rfl
    · rfl
    · simp only [Layer.lift]
      cases Tagged.verify _ payload <;> rfl

/-- Sending lowers the payload through the top layer, and sends what comes of it below. -/
theorem send_cons (layer : Layer) (inner : Channel) (payload : Bytes) :
    send (layer :: inner) payload = Dialogue.ofDraw (layer.lower payload) >>= fun
      | (.ok c, layer) => send inner c >>= fun r => pure (r.1, layer :: r.2)
      | (.error e, layer) => pure (.error e, layer :: inner) := by
  cases layer with
  | base64 => rfl
  | symmetric cipher =>
    rw [send]
    rcases h : cipher.encrypt payload with ⟨e | c, cipher'⟩
    all_goals
      simp only [Layer.lower, h]
      rfl
  | asymmetric keys =>
    rw [send, Layer.lower]
    cases keys.opposite with
    | none => rfl
    | some recipient =>
      dsimp only
      rw [Dialogue.ofDraw_bind, Dialogue.bind_assoc]
      refine congrArg (Dialogue.bind _) (funext fun o => ?_)
      cases o <;> rfl
  | integrity key => rfl

end Channel

end SealedChat
