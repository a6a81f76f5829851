import Mathlib.Logic.Relation
import SealedChat.Proofs.Channel.Converse
import SealedChat.Proofs.Channel.Layer
import SealedChat.Proofs.Intake

/-!
# Channels are transparent

Payloads are sent through a channel, and received through one that mirrors it, over a stream that
carries the written lines. If every payload is sent and no line is too long for the reader, the
payloads are received as they were, in their order, whatever the pieces in which the bytes arrive;
and after the last of them, once the sender has closed the stream, nothing is received any more
(`Channel.transparent`).

The proof is by induction on the payloads. One payload takes one line, by induction on the layers
(`Channel.Mirrors.send`), and leaves channels that mirror each other.
-/

namespace SealedChat

variable {α β : Type}

/-! ## Dialogues that end -/

namespace Speaker

/-- The dialogue comes to its end, with this result and this transport. No random bytes are refused
on the way. -/
def Ends (e : Speaker α) (a : α) (t : Transport) : Prop :=
  Relation.ReflTransGen Speaker.Step e ⟨.done a, t⟩

variable {a : α} {b : β} {t t₁ t' : Transport}

theorem ends_done_iff {a' : α} : Ends ⟨.done a, t⟩ a' t' ↔ a' = a ∧ t' = t := by
  constructor
  · intro h
    rcases Relation.ReflTransGen.cases_head h with h | ⟨e, hs, -⟩
    · cases h
      exact ⟨rfl, rfl⟩
    · cases hs
  · intro ⟨ha, ht⟩
    subst ha ht
    exact .refl

theorem ends_send_iff {line : Bytes} {next : Outcome Unit → Dialogue α} :
    Ends ⟨.send line next, t⟩ a t' ↔ Ends ⟨next (t.send line).1, (t.send line).2⟩ a t' := by
  constructor
  · intro h
    rcases Relation.ReflTransGen.cases_head h with h | ⟨e, hs, h⟩
    · cases h
    · cases hs
      exact h
  · exact .head (.send line next t)

theorem ends_fill_iff {n : Nat} {next : Option (Block n) → Dialogue α} :
    Ends ⟨.fill n next, t⟩ a t' ↔ ∃ b, Ends ⟨next (some b), t⟩ a t' := by
  constructor
  · intro h
    rcases Relation.ReflTransGen.cases_head h with h | ⟨e, hs, h⟩
    · cases h
    · obtain _ | _ | _ | _ | ⟨_, _, b⟩ := hs
      exact ⟨b, h⟩
  · intro ⟨b, h⟩
    exact .head (.fill next t b) h

theorem ends_bind_iff {x : Dialogue α} {f : α → Dialogue β} :
    Ends ⟨x >>= f, t⟩ b t' ↔ ∃ a t₁, Ends ⟨x, t⟩ a t₁ ∧ Ends ⟨f a, t₁⟩ b t' := by
  constructor
  · intro h
    -- by induction on the run: its first step is one of the first dialogue, until that has ended
    generalize he : (⟨x >>= f, t⟩ : Speaker β) = e at h
    induction h using Relation.ReflTransGen.head_induction_on generalizing x t with
    | refl =>
      cases x with
      | done a => exact ⟨a, t, .refl, he ▸ .refl⟩
      | _ => cases he
    | head hs h ih =>
      subst he
      cases x with
      | done a => exact ⟨a, t, .refl, .head hs h⟩
      | send line next =>
        cases hs
        obtain ⟨a, t₁, hx, hf⟩ := ih rfl
        exact ⟨a, t₁, .head (.send _ _ _) hx, hf⟩
      | receive limit next =>
        cases hs with
        | receive hp =>
          obtain ⟨a, t₁, hx, hf⟩ := ih rfl
          exact ⟨a, t₁, .head (.receive hp) hx, hf⟩
        | look hne hp =>
          obtain ⟨a, t₁, hx, hf⟩ := ih (x := .receive limit next) rfl
          exact ⟨a, t₁, .head (.look hne hp) hx, hf⟩
      | close next =>
        cases hs
        obtain ⟨a, t₁, hx, hf⟩ := ih rfl
        exact ⟨a, t₁, .head (.close _ _) hx, hf⟩
      | fill n next =>
        cases hs
        obtain ⟨a, t₁, hx, hf⟩ := ih rfl
        exact ⟨a, t₁, .head (.fill _ _ _) hx, hf⟩
  · intro ⟨a, t₁, hx, hf⟩
    generalize he : (⟨x, t⟩ : Speaker α) = e at hx
    induction hx using Relation.ReflTransGen.head_induction_on generalizing x t with
    | refl =>
      cases he
      exact hf
    | head hs _ ih =>
      subst he
      cases hs with
      | send line next => exact .head (.send _ _ _) (ih rfl)
      | receive hp => exact .head (.receive hp) (ih rfl)
      | look hne hp => exact .head (.look hne hp) (ih rfl)
      | close next => exact .head (.close _ _) (ih rfl)
      | fill next _ b => exact .head (.fill _ _ b) (ih rfl)

theorem ends_ofDraw {P : α → Prop} {d : Draw α} (hd : d.Always P)
    (h : Ends ⟨Dialogue.ofDraw d, t⟩ a t') : P a ∧ t' = t := by
  induction d with
  | done a' =>
    obtain ⟨rfl, rfl⟩ := ends_done_iff.1 h
    exact ⟨hd, rfl⟩
  | fill n next ih =>
    obtain ⟨b, h⟩ := ends_fill_iff.1 h
    exact ih (some b) (hd b) h

theorem exists_ends_ofDraw {P : α → Prop} {d : Draw α} (hd : d.Always P) (t : Transport) :
    ∃ a, P a ∧ Ends ⟨Dialogue.ofDraw d, t⟩ a t := by
  induction d with
  | done a => exact ⟨a, hd, .refl⟩
  | fill n next ih =>
    obtain ⟨a, ha, h⟩ := ih (some (.ofPrefix n [])) (hd _)
    exact ⟨a, ha, ends_fill_iff.2 ⟨_, h⟩⟩

end Speaker

/-- A line is written as it is, behind the write buffer, and only if it is text without breaks. -/
theorem Transport.send_eq_ok {t t' : Transport} {line : Bytes} (h : t.send line = (.ok (), t')) :
    t' = { t with written := t.written ++ (t.unwritten ++ [line]), unwritten := [] } ∧
      IsSendable line := by
  rcases t.send_cases line with ⟨e, -, hs⟩ | ⟨-, hl, hs⟩
  · rw [h] at hs
    cases hs
  · rw [h, write_eq] at hs
    split_ifs at hs <;> cases hs
    exact ⟨rfl, hl⟩

theorem Dialogue.Hears.map {limit : Nat} {closing : Bool} {P : α → Prop} {Q : β → Prop}
    {d : Dialogue α} {lines : List Bytes} (h : d.Hears limit closing P lines) {f : α → β}
    (hf : ∀ a, P a → Q (f a)) : (d >>= fun a => pure (f a)).Hears limit closing Q lines := by
  induction h with
  | done hP => exact .done (hf _ hP)
  | line hl _ ih => exact .line hl ih
  | closed hc _ ih => exact .closed hc ih

namespace Channel

variable [CipherSuite]

/-! ## Sequences of payloads -/

/-- Sends one payload after the other, whether the one before was sent or not. -/
def sendAll : Channel → List Bytes → Dialogue (List (Outcome Unit) × Channel)
  | c, [] => return ([], c)
  | c, payload :: payloads => do
    let (o, c) ← send c payload
    let (os, c) ← sendAll c payloads
    return (o :: os, c)

/-- Receives so many payloads. -/
def receiveAll (limit : Option Duration) : Channel → Nat → Dialogue (List (Outcome Bytes) × Channel)
  | c, 0 => return ([], c)
  | c, n + 1 => do
    let (o, c) ← receive limit c
    let (os, c) ← receiveAll limit c n
    return (o :: os, c)

variable {c c' c₁ : Channel} {t t' : Transport}

/-! ## One payload -/

/-- **What one channel sends in a line, its mirror lifts out of the line.** -/
theorem Mirrors.send (hs : CipherSuite.Lawful) (h : Mirrors c c') {payload : Bytes}
    (he : Speaker.Ends ⟨Channel.send c payload, t⟩ (.ok (), c₁) t') :
    ∃ line c₁', t.send line = (.ok (), t') ∧ lift c' (.ok line) = (.ok payload, c₁') ∧
      Mirrors c₁ c₁' := by
  induction h generalizing payload t c₁ t' with
  | nil =>
    have he : Speaker.Ends ⟨.send payload fun o => .done (o, []), t⟩ (.ok (), c₁) t' := he
    rw [Speaker.ends_send_iff, Speaker.ends_done_iff, Prod.mk.injEq] at he
    obtain ⟨⟨ho, rfl⟩, rfl⟩ := he
    exact ⟨payload, [], by rw [ho], rfl, .nil⟩
  | @cons layer layer' inner inner' hl hi ih =>
    rw [send_cons] at he
    obtain ⟨⟨o, layer₁⟩, t₁, hd, he⟩ := Speaker.ends_bind_iff.1 he
    obtain ⟨hlift, rfl⟩ := Speaker.ends_ofDraw (hl.lower hs payload) hd
    cases o with
    | error e => cases (Speaker.ends_done_iff.1 he).1
    | ok below =>
      obtain ⟨⟨o, inner₁⟩, t₂, hinner, he⟩ := Speaker.ends_bind_iff.1 he
      obtain ⟨ho, rfl⟩ := Speaker.ends_done_iff.1 he
      cases ho
      obtain ⟨layer₁', hlayer, hm⟩ := hlift below rfl
      obtain ⟨line, inner₁', hline, hup, hmi⟩ := ih hinner
      refine ⟨line, layer₁' :: inner₁', hline, ?_, .cons hm hmi⟩
      rw [lift_cons_of_ok hup, hlayer]

/-! ## All payloads -/

/-- Behind the last line, the channel receives nothing. -/
theorem hears_closed (limit : Nat) (wait : Option Duration) (c : Channel) {k : Nat} {closing : Bool}
    (hk : k ≠ 0 → closing = true) :
    (receiveAll wait c k).Hears limit closing
      (fun out => out.1 = List.replicate k (.error .connectionClosed)) [] := by
  induction k with
  | zero => exact .done rfl
  | succ k ih =>
    rw [receiveAll, receive_eq]
    refine .closed (hk (by omega)) ?_
    show ((Dialogue.done (lift c _)) >>= _).Hears _ _ _ _
    rw [lift_error]
    exact Dialogue.Hears.map (ih fun _ => hk (by omega)) fun out ho => by
      simp [ho, List.replicate_succ]

/-- What is sent takes a line for each payload, and the mirror hears these lines as the payloads. -/
theorem Mirrors.sendAll (hs : CipherSuite.Lawful) (limit : Nat) (wait : Option Duration)
    (h : Mirrors c c') {payloads : List Bytes} {os : List (Outcome Unit)}
    (he : Speaker.Ends ⟨Channel.sendAll c payloads, t⟩ (os, c₁) t') (ho : ∀ o ∈ os, o = .ok ())
    (ht : t.unwritten = []) :
    ∃ lines, t' = { t with written := t.written ++ lines } ∧
      ((∀ line ∈ lines, line.length ≤ limit) → ∀ k closing, (k ≠ 0 → closing = true) →
        (receiveAll wait c' (payloads.length + k)).Hears limit closing
          (fun out => out.1 = payloads.map .ok ++ List.replicate k (.error .connectionClosed))
          lines) := by
  induction payloads generalizing c c' t os with
  | nil =>
    obtain ⟨-, rfl⟩ := Speaker.ends_done_iff.1 he
    refine ⟨[], by simp, fun _ k closing hk => ?_⟩
    simpa using hears_closed limit wait c' hk
  | cons payload payloads ih =>
    obtain ⟨⟨o, c₂⟩, t₁, hsend, he⟩ := Speaker.ends_bind_iff.1 he
    obtain ⟨⟨os', c₃⟩, t₂, hrest, he⟩ := Speaker.ends_bind_iff.1 he
    obtain ⟨heq, rfl⟩ := Speaker.ends_done_iff.1 he
    cases heq
    obtain rfl : o = .ok () := ho o (by simp)
    obtain ⟨line, c₂', hline, hlift, hm⟩ := h.send hs hsend
    obtain ⟨rfl, hsendable⟩ := Transport.send_eq_ok hline
    obtain ⟨lines, ht', hhears⟩ := ih hm hrest (fun o hmem => ho o (by simp [hmem])) rfl
    refine ⟨line :: lines, by simp [ht', ht], fun hfit k closing hk => ?_⟩
    have hclean : IsClean limit line := ⟨hsendable, hfit line (by simp)⟩
    rw [List.length_cons, Nat.add_right_comm, receiveAll, receive_eq]
    refine .line hclean ?_
    show ((Dialogue.done (lift c' _)) >>= _).Hears _ _ _ _
    rw [hlift]
    exact Dialogue.Hears.map
      (hhears (fun l hmem => hfit l (List.mem_cons_of_mem _ hmem)) k closing hk)
      fun out hout => by simp [hout]

/-- **Channels that mirror each other are transparent.** If all payloads are sent, in lines that the
reader admits, then receiving as many gives these payloads in this order, whatever the pieces in
which the bytes arrive; and once the sender has closed the stream, receiving more finds the
connection closed each time. -/
theorem transparent (hs : CipherSuite.Lawful) (hm : Mirrors c c') {payloads : List Bytes}
    {l limit : Nat} {os : List (Outcome Unit)}
    (hsent : Speaker.Ends ⟨Channel.sendAll c payloads, .new l⟩ (os, c₁) t)
    (hok : ∀ o ∈ os, o = .ok ()) (hfit : ∀ line ∈ t.written, line.length ≤ limit)
    (wait : Option Duration) :
    (Intake.start (receiveAll wait c' payloads.length) limit t).Leads
        (fun out => out.1 = payloads.map .ok) ∧
      ∀ k, (Intake.start (receiveAll wait c' (payloads.length + k)) limit t.close).Leads
        (fun out => out.1 = payloads.map .ok ++ List.replicate k (.error .connectionClosed)) := by
  obtain ⟨lines, rfl, h⟩ := hm.sendAll hs limit wait hsent hok rfl
  have hlines : ∀ line ∈ lines, line.length ≤ limit := fun line hl => hfit line (by simp [hl])
  constructor
  · have hopen := h hlines 0 false fun h => absurd rfl h
    simp only [List.replicate_zero, List.append_nil] at hopen
    exact hopen.leads
  · intro k
    have hclose : Transport.close
          { Transport.new l with written := (Transport.new l).written ++ lines } =
        { Transport.new l with written := lines, closed := true, shutdowns := 1 } := by
      rw [Transport.close_of_open rfl, if_neg (by simp [Transport.isStuck, Transport.new])]
      simp [Transport.new]
    rw [hclose]
    exact (h hlines k true fun _ => rfl).leads

/-- One payload, through all four layers. -/
theorem ends_send_cons {layer layer₁ : Layer} {inner inner₁ : Channel} {payload below : Bytes}
    {o : Outcome Unit}
    (hl : Speaker.Ends ⟨Dialogue.ofDraw (layer.lower payload), t⟩ (.ok below, layer₁) t)
    (hi : Speaker.Ends ⟨send inner below, t⟩ (o, inner₁) t') :
    Speaker.Ends ⟨send (layer :: inner) payload, t⟩ (o, layer₁ :: inner₁) t' := by
  rw [send_cons]
  exact Speaker.ends_bind_iff.2 ⟨_, t, hl, Speaker.ends_bind_iff.2 ⟨_, t', hi, .refl⟩⟩

omit [CipherSuite] in
/-- A payload is tagged, encrypted, sealed and spelled, and received on the other side. -/
theorem transparent_of_four_layers :
    let suite := CipherSuite.between (.zero 32) (.ofPrefix 32 [8])
    ∃ (c c' c₁ : Channel) (os : List (Outcome Unit)) (t : Transport), suite.Lawful ∧
      Mirrors c c' ∧ Speaker.Ends ⟨sendAll c [[104, 105]], .new 1024⟩ (os, c₁) t ∧
      (∀ o ∈ os, o = .ok ()) ∧ (∀ line ∈ t.written, line.length ≤ 1024) ∧
      (Intake.start (receiveAll none c' 1) 1024 t).Leads (fun out => out.1 = [.ok [104, 105]]) ∧
      ∀ k, (Intake.start (receiveAll none c' (1 + k)) 1024 t.close).Leads
        (fun out => out.1 = [.ok [104, 105]] ++ List.replicate k (.error .connectionClosed)) := by
  let suite := CipherSuite.between (.zero 32) (.ofPrefix 32 [8])
  have hs : CipherSuite.Lawful := CipherSuite.lawful_between (.zero 32) (.ofPrefix 32 [8])
  let own : PrivateKey := ⟨.zero 32⟩
  let opposite : PrivateKey := ⟨.ofPrefix 32 [8]⟩
  let key : IntegrityKey := ⟨List.replicate 16 0, by decide⟩
  let secrets : Secrets := ⟨⟨.zero 32⟩, ⟨.zero 16⟩⟩
  let cipher : SessionCipher := .new secrets .initiator
  let keys : SealingKeys := ⟨own, some opposite.publicKey⟩
  let c : Channel := [.integrity key, .symmetric cipher, .asymmetric keys, .base64]
  let c' : Channel := [.integrity key, .symmetric (.new secrets .responder),
    .asymmetric ⟨opposite, some own.publicKey⟩, .base64]
  have hm : Mirrors c c' :=
    .cons rfl (.cons ⟨rfl, rfl, rfl, rfl⟩ (.cons ⟨rfl, rfl⟩ (.cons trivial .nil)))
  let t : Transport := .new 1024
  let tagged := Tagged.line key [104, 105]
  have htagged : tagged.length = 47 := by
    simp [tagged, Tagged.line, Base64.length_encodeLine, Block.length_bytes]
  have hfits : ChaChaPoly.fits tagged.length := ChaChaPoly.fits_of_le (by omega)
  obtain ⟨x, hx, hxlen⟩ : ∃ x, SessionCrypt.encrypt secrets .initiator 0 tagged = .ok x ∧
      x.length = tagged.length + 16 := by
    have hzero : 0 < SessionCrypt.directionBit := by decide
    obtain ⟨x, hx, -, hlen⟩ := SessionCrypt.exists_encrypt hs hzero hfits
    exact ⟨x, hx, hlen⟩
  have hcipher : cipher.encrypt tagged = (.ok x, { cipher with sent := 1 }) :=
    SessionCipher.encrypt_of_ok hx
  obtain ⟨o, ⟨box, rfl, -, hbox⟩, hseal⟩ := Speaker.exists_ends_ofDraw
    (SealedBox.always_sealTo hs opposite (by rw [hxlen, htagged]; decide : x.length ≤ _)) t
  have hclean : IsClean 1024 (Base64.encodeLine box) := by
    refine isClean_encodeLine ?_
    rw [hbox, hxlen, htagged]
    decide
  have hline := Transport.send_of_isClean (Transport.isOpen_new 1024) hclean
  -- from the line up to the top layer
  have hword : Speaker.Ends ⟨send [] (Base64.encodeLine box), t⟩ (.ok (), [])
      { t with written := [Base64.encodeLine box] } := by
    refine Speaker.ends_send_iff.2 (Speaker.ends_done_iff.2 ?_)
    rw [hline]
    exact ⟨rfl, rfl⟩
  have hbox : Speaker.Ends ⟨send [.base64] box, t⟩ (.ok (), [.base64])
      { t with written := [Base64.encodeLine box] } := ends_send_cons .refl hword
  have hsealed : Speaker.Ends ⟨send [.asymmetric keys, .base64] x, t⟩
      (.ok (), [.asymmetric keys, .base64]) { t with written := [Base64.encodeLine box] } := by
    refine ends_send_cons ?_ hbox
    show Speaker.Ends ⟨Dialogue.ofDraw ((SealedBox.sealTo _ x).run >>= _), t⟩ _ _
    rw [Dialogue.ofDraw_bind]
    exact Speaker.ends_bind_iff.2 ⟨_, _, hseal, .refl⟩
  have hencrypted : Speaker.Ends ⟨send [.symmetric cipher, .asymmetric keys, .base64] tagged, t⟩
      (.ok (), [.symmetric { cipher with sent := 1 }, .asymmetric keys, .base64])
      { t with written := [Base64.encodeLine box] } := by
    refine ends_send_cons ?_ hsealed
    rw [Layer.lower, hcipher]
    exact .refl
  have hsent : Speaker.Ends ⟨sendAll c [[104, 105]], t⟩
      ([.ok ()], [.integrity key, .symmetric { cipher with sent := 1 }, .asymmetric keys, .base64])
      { t with written := [Base64.encodeLine box] } :=
    Speaker.ends_bind_iff.2 ⟨_, _, ends_send_cons .refl hencrypted, .refl⟩
  have hok : ∀ o ∈ [(.ok () : Outcome Unit)], o = .ok () := by simp
  have hfit : ∀ line ∈ [Base64.encodeLine box], line.length ≤ 1024 := by
    simpa using hclean.length_le
  obtain ⟨hopen, hclosed⟩ := transparent hs hm hsent hok hfit none
  exact ⟨c, c', _, _, _, hs, hm, hsent, hok, hfit, hopen, hclosed⟩

end Channel

end SealedChat
