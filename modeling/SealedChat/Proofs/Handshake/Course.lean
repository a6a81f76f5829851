import SealedChat.Proofs.Handshake.Initiate

/-!
# The courses of a handshake

What either side draws and what it lets out, in one order. An initiator draws its challenge first
and sends it in its first line; a second line follows only on a reply that echoes this challenge
(`initiate_course`). A responder hears who is there, draws a challenge and the secrets, and sends
them in its only line to the key of whom it has heard; it succeeds when the line that it reads next
returns the challenge (`respond_course`). No other course sends a line, and each of these can be
taken (`runs_initiate`, `runs_respond`).
-/

namespace SealedChat

namespace Dialogue

@[simp] theorem written_filled (n : Nat) (o : Option (Block n)) (es : List Event) :
    written (.filled n o :: es) = written es := rfl

/-- A line that was sent is the first one, or comes after it. -/
theorem sent_cases (fs : List Event) {es es' fs' : List Event} {line line' : Bytes}
    {o o' : Outcome Unit} (h : es ++ .sent line o :: es' = fs ++ .sent line' o' :: fs')
    (hfs : written fs = []) :
    (es = fs ∧ line = line') ∨
      ∃ mid, es = fs ++ .sent line' o' :: mid ∧ fs' = mid ++ .sent line o :: es' := by
  rcases List.append_eq_append_iff.1 h with ⟨mid, rfl, hmid⟩ | ⟨mid, rfl, hmid⟩
  · cases mid with
    | nil =>
      cases hmid
      exact .inl ⟨by simp, rfl⟩
    | cons x mid =>
      obtain ⟨rfl, -⟩ := List.cons.inj hmid
      simp at hfs
  · cases mid with
    | nil =>
      cases hmid
      exact .inl ⟨by simp, rfl⟩
    | cons x mid =>
      obtain ⟨rfl, rfl⟩ := List.cons.inj hmid
      exact .inr ⟨mid, rfl, rfl⟩

theorem written_ne_nil {es es' : List Event} {line : Bytes} {o : Outcome Unit} :
    written (es ++ .sent line o :: es') ≠ [] := by
  simp

end Dialogue

/-- Whether a failed exchange has closed the line or not, nothing more is sent. -/
theorem Exchange.runs_of_orClose {α : Type} {x : Exchange α} {es : List Dialogue.Event}
    {r : Outcome α} (h : x.orClose.Runs es r) :
    ∃ es' tail, es = es' ++ tail ∧ Dialogue.written tail = [] ∧ x.run.Runs es' r ∧
      ∀ a, r = .ok a → tail = [] := by
  rcases Exchange.runs_orClose_iff.1 h with ⟨a, rfl, h₁⟩ | ⟨e, es', rfl, rfl, h₁⟩
  · exact ⟨es, [], by rw [List.append_nil], rfl, h₁, fun _ _ => rfl⟩
  · exact ⟨es', [.closed], rfl, rfl, h₁, fun a ha => by cases ha⟩

namespace Handshake

open Dialogue

variable [CipherSuite]

/-! ## The initiator -/

/-- What is left to do for an initiator that has drawn its challenge. -/
def greet (keys : SealingKeys) (inner : Channel) (identity : String) (c : Challenge)
    (limit : Duration) : Exchange Secured := do
  let chain ← Channel.say (.asymmetric keys :: inner) (Message.authenticate identity c).encode
  awaitReply ⟨identity, .challengeSent c⟩ chain identity limit

theorem introduce_eq (keys : SealingKeys) (inner : Channel) (identity : String) (limit : Duration) :
    (introduce keys inner ⟨identity, .init⟩ identity limit).run = .fill 32 fun
      | some b => (greet keys inner identity ⟨b⟩ limit).run
      | none => .done (.error .entropyExhausted) := by
  rw [introduce, Initiator.start_eq]
  refine congrArg (Dialogue.fill 32) (funext fun o => ?_)
  cases o <;> rfl

variable {keys : SealingKeys} {key : PublicKey} {limit : Duration} {identity : String}
  {ca cb c : Challenge} {secrets : Secrets} {es : List Event} {r : Outcome Secured}

theorem runs_greet (hk : keys.opposite = some key)
    (h : (greet keys [.base64] identity c limit).run.Runs es r) :
    (∃ answers e, es = draws answers ∧ r = .error e) ∨
    ∃ answers hello o rest, es = draws answers ++ .sent hello o :: rest ∧
      Greets key hello identity c ∧ ((rest = [] ∧ ∃ e, r = .error e) ∨
        (awaitReply ⟨identity, .challengeSent c⟩ [.asymmetric keys, .base64] identity
          limit).run.Runs rest r) := by
  rcases Channel.runs_say_asymmetric_bind keys _ hk h with
    h₁ | ⟨answers, box, o, rest, rfl, hseal, hrest⟩
  · exact .inl h₁
  · exact .inr ⟨answers, _, o, rest, rfl, ⟨box, rfl, answers, hseal⟩,
      hrest.imp (fun ⟨hnil, e, he, _⟩ => ⟨hnil, e, he⟩) And.right⟩

/-- **An initiator lets out its challenge, and then a confirmation of a reply that echoes it.** -/
theorem initiate_course (h : (initiate keys [.base64] identity limit).Runs es r) :
    written es = [] ∨
    ∃ key c answers hello o rest, Principal.IsValid identity ∧ keys.opposite = some key ∧
      es = .filled 32 (some c.block) :: draws answers ++ .sent hello o :: rest ∧
      Greets key hello identity c ∧ (written rest = [] ∨
        ∃ reply confirm o' tail cb secrets,
          rest = .received (some limit) (.ok reply) :: .sent confirm o' :: tail ∧
          Echoes keys.own reply c cb secrets ∧ Returns secrets confirm cb ∧ written tail = []) := by
  by_cases href : keys.opposite = none ∨ ¬Principal.IsValid identity
  · left
    obtain ⟨e, heq⟩ := initiate_of_refused href [.base64] limit
    rw [heq] at h
    obtain ⟨rest, rfl, h₁⟩ := runs_close_iff.1 h
    obtain ⟨rfl, -⟩ := runs_done_iff.1 h₁
    rfl
  have hi : Principal.IsValid identity := not_not.1 fun hi => href (.inr hi)
  obtain ⟨key, hk⟩ : ∃ key, keys.opposite = some key :=
    Option.ne_none_iff_exists'.1 fun hk => href (.inl hk)
  rw [initiate_eq hk hi] at h
  obtain ⟨es₁, tail, rfl, htail, h₁, -⟩ := Exchange.runs_of_orClose h
  rw [introduce_eq] at h₁
  obtain ⟨_ | b, es₂, rfl, h₂⟩ := runs_fill_iff.1 h₁
  · obtain ⟨rfl, -⟩ := runs_done_iff.1 h₂
    exact .inl htail
  rcases runs_greet hk h₂ with ⟨answers, _, rfl, -⟩ | ⟨answers, hello, o, rest, rfl, hg, hrest⟩
  · left
    simpa using htail
  refine .inr ⟨key, ⟨b⟩, answers, hello, o, rest ++ tail, hi, hk, by simp, hg, ?_⟩
  rcases hrest with ⟨rfl, -⟩ | h₃
  · exact .inl htail
  rcases runs_awaitReply (by rfl) h₃ with
    ⟨o, rest, rfl, ⟨rfl, -⟩ | ⟨reply, confirm, o', cb, secrets, rfl, rfl, he, hc, -⟩⟩
  · exact .inl htail
  · exact .inr ⟨reply, confirm, o', tail, cb, secrets, rfl, he, hc, htail⟩

/-! ## The responder -/

/-- What is left to do for a responder that has drawn its challenge and the secrets. -/
def disclose (keys : SealingKeys) (inner : Channel) (identity : String) (ca cb : Challenge)
    (secrets : Secrets) (limit : Duration) : Exchange Secured := do
  let chain ← Channel.say (.asymmetric keys :: inner) (Message.accept ca cb secrets).encode
  awaitConfirmation ⟨some identity, .awaitingConfirmation cb⟩ secrets chain.tail limit

theorem answerAndWait_eq (keys : SealingKeys) (inner : Channel) (identity : String) (ca : Challenge)
    (limit : Duration) :
    (answerAndWait keys inner ⟨some identity, .init⟩ ca limit).run = .fill 32 fun
      | none => .done (.error .entropyExhausted)
      | some cb => .fill 32 fun
        | none => .done (.error .entropyExhausted)
        | some k => .fill 16 fun
          | none => .done (.error .entropyExhausted)
          | some v => (disclose keys inner identity ca ⟨cb⟩ ⟨⟨k⟩, ⟨v⟩⟩ limit).run := by
  rw [answerAndWait, Responder.reply_eq ⟨rfl, rfl⟩]
  refine congrArg (Dialogue.fill 32) (funext fun o => ?_)
  cases o with
  | none => rfl
  | some cb =>
    refine congrArg (Dialogue.fill 32) (funext fun o => ?_)
    cases o with
    | none => rfl
    | some k =>
      refine congrArg (Dialogue.fill 16) (funext fun o => ?_)
      cases o <;> rfl

/-- Whom a line introduces to the holder of `own`, and under which key. -/
def heard (own : PrivateKey) (store : KeyStore) (o : Outcome Bytes) :
    Outcome (String × Challenge × PublicKey) :=
  Channel.unbox own o >>= Message.parseAuthenticate >>= fun p =>
    store.find p.1 >>= fun key => .ok (p.1, p.2, key)

theorem hearAndAnswer_eq (own : SealingKeys) (store : KeyStore) (first : Option Duration)
    (limit : Duration) :
    (hearAndAnswer own [.base64] store first limit).run = .receive first fun o =>
      match heard own.own store o with
      | .error e => .done (.error e)
      | .ok (identity, ca, key) =>
        (answerAndWait { own with opposite := some key } [.base64] ⟨some identity, .init⟩ ca
          limit).run := by
  rw [hearAndAnswer, Channel.hear_asymmetric]
  refine congrArg (Dialogue.receive first) (funext fun o => ?_)
  cases hu : Channel.unbox own.own o with
  | error e =>
    simp only [Dialogue.bind, heard, hu]
    rfl
  | ok text =>
    cases hp : Message.parseAuthenticate text with
    | error e =>
      have hnew : Responder.new.onAuthenticate text = (.error e, ⟨none, .failed⟩) := by
        rw [Responder.onAuthenticate, if_pos ⟨rfl, rfl⟩, hp]
        rfl
      simp only [Dialogue.bind, heard, hu, bind, Except.bind, hp, ExceptT.bindCont, Except.map, hnew]
      rfl
    | ok p =>
      have hnew : Responder.new.onAuthenticate text = (.ok p, ⟨some p.1, .init⟩) := by
        rw [Responder.onAuthenticate, if_pos ⟨rfl, rfl⟩, hp]
        rfl
      simp only [Dialogue.bind, heard, hu, bind, Except.bind, hp, ExceptT.bindCont, Except.map, hnew]
      show ExceptT.bindCont _ (store.find p.1) = _
      cases store.find p.1 <;> rfl

theorem heard_eq_ok_iff {own : PrivateKey} {store : KeyStore} {o : Outcome Bytes} :
    heard own store o = .ok (identity, ca, key) ↔ Principal.IsValid identity ∧
      (∃ hello, o = .ok hello ∧ Introduces own hello identity ca) ∧
      store.find identity = .ok key := by
  simp only [heard, Outcome.bind_eq_ok_iff, Channel.unbox_eq_ok_iff]
  constructor
  · intro ⟨⟨name, c⟩, ⟨text, ⟨box, ho, hbox⟩, hp⟩, k, hk, heq⟩
    cases heq
    obtain ⟨hi, rfl⟩ := Message.parseAuthenticate_eq_ok_iff.1 hp
    exact ⟨hi, ⟨_, ho, box, rfl, hbox⟩, hk⟩
  · intro ⟨hi, ⟨hello, ho, box, hhello, hbox⟩, hk⟩
    exact ⟨(identity, ca), ⟨_, ⟨box, hhello ▸ ho, hbox⟩,
      Message.parseAuthenticate_eq_ok_iff.2 ⟨hi, rfl⟩⟩, key, hk, rfl⟩

/-- Either nothing is disclosed, or one line is, and then the confirmation is awaited. -/
theorem runs_disclose (hk : keys.opposite = some key)
    (h : (disclose keys [.base64] identity ca cb secrets limit).run.Runs es r) :
    (∃ answers e, es = draws answers ∧ r = .error e) ∨
    ∃ answers line o rest, es = draws answers ++ .sent line o :: rest ∧
      Discloses key line ca cb secrets ∧ ((rest = [] ∧ ∃ e, r = .error e ∧ o = .error e) ∨ o = .ok () ∧
        (awaitConfirmation ⟨some identity, .awaitingConfirmation cb⟩ secrets [.base64]
          limit).run.Runs rest r) := by
  rcases Channel.runs_say_asymmetric_bind keys _ hk h with
    h₁ | ⟨answers, box, o, rest, rfl, hseal, hrest⟩
  · exact .inl h₁
  · exact .inr ⟨answers, _, o, rest, rfl, ⟨box, rfl, answers, hseal⟩, hrest⟩

variable {own : SealingKeys} {store : KeyStore} {first : Option Duration}

/-- A responder waits for a line before all else. -/
theorem respond_waits (h : (respond own [.base64] store first limit).Runs es r) :
    ∃ o rest, es = .received first o :: rest := by
  rw [respond_eq] at h
  obtain ⟨es₁, tail, rfl, -, h₁, -⟩ := Exchange.runs_of_orClose h
  rw [hearAndAnswer_eq] at h₁
  obtain ⟨o, es₂, rfl, -⟩ := runs_receive_iff.1 h₁
  exact ⟨o, es₂ ++ tail, rfl⟩

/-- A responder that sends a line has heard who is there, and has drawn what it tells them. If the
line is taken it awaits the confirmation; if it fails then, all that it does is to close the line. -/
theorem respond_stages (h : (respond own [.base64] store first limit).Runs es r) :
    (written es = [] ∧ ∃ e, r = .error e) ∨
    ∃ hello identity ca key cb secrets answers line o rest tail,
      es = .received first (.ok hello) :: .filled 32 (some cb.block) ::
        .filled 32 (some secrets.key.block) :: .filled 16 (some secrets.iv.block) ::
          (draws answers ++ .sent line o :: (rest ++ tail)) ∧
      Principal.IsValid identity ∧ Introduces own.own hello identity ca ∧
      store.find identity = .ok key ∧ Discloses key line ca cb secrets ∧ written tail = [] ∧
      (∀ secured, r = .ok secured → tail = []) ∧
      ((rest = [] ∧ ∃ e, r = .error e ∧ o = .error e) ∨ o = .ok () ∧ (awaitConfirmation
        ⟨some identity, .awaitingConfirmation cb⟩ secrets [.base64] limit).run.Runs rest r) := by
  rw [respond_eq] at h
  obtain ⟨es₁, tail, rfl, htail, h₁, hok⟩ := Exchange.runs_of_orClose h
  rw [hearAndAnswer_eq] at h₁
  obtain ⟨o, es₂, rfl, h₂⟩ := runs_receive_iff.1 h₁
  cases hheard : heard own.own store o with
  | error e =>
    rw [hheard] at h₂
    obtain ⟨rfl, rfl⟩ := runs_done_iff.1 h₂
    exact .inl ⟨htail, e, rfl⟩
  | ok p =>
    obtain ⟨identity, ca, key⟩ := p
    obtain ⟨hi, ⟨hello, rfl, hintro⟩, hfind⟩ := heard_eq_ok_iff.1 hheard
    rw [hheard] at h₂
    replace h₂ : (answerAndWait { own with opposite := some key } [.base64]
      ⟨some identity, .init⟩ ca limit).run.Runs es₂ r := h₂
    rw [answerAndWait_eq] at h₂
    obtain ⟨_ | cb, es₃, rfl, h₃⟩ := runs_fill_iff.1 h₂
    · obtain ⟨rfl, rfl⟩ := runs_done_iff.1 h₃
      exact .inl ⟨htail, _, rfl⟩
    obtain ⟨_ | k, es₄, rfl, h₄⟩ := runs_fill_iff.1 h₃
    · obtain ⟨rfl, rfl⟩ := runs_done_iff.1 h₄
      exact .inl ⟨htail, _, rfl⟩
    obtain ⟨_ | v, es₅, rfl, h₅⟩ := runs_fill_iff.1 h₄
    · obtain ⟨rfl, rfl⟩ := runs_done_iff.1 h₅
      exact .inl ⟨htail, _, rfl⟩
    rcases runs_disclose (by rfl) h₅ with
      ⟨answers, e, rfl, rfl⟩ | ⟨answers, line, o, rest, rfl, hl, hrest⟩
    · refine .inl ⟨?_, e, rfl⟩
      simpa using htail
    · exact .inr ⟨hello, identity, ca, key, ⟨cb⟩, ⟨⟨k⟩, ⟨v⟩⟩, answers, line, o, rest, tail, by simp, hi,
        hintro, hfind, hl, htail, hok, hrest⟩

/-- **A responder lets out its challenge and the secrets once**, to the key of whom it has heard. -/
theorem respond_course (h : (respond own [.base64] store first limit).Runs es r) :
    (written es = [] ∧ ∃ e, r = .error e) ∨
    ∃ hello identity ca key cb secrets answers line o rest,
      es = .received first (.ok hello) :: .filled 32 (some cb.block) ::
        .filled 32 (some secrets.key.block) :: .filled 16 (some secrets.iv.block) ::
          (draws answers ++ .sent line o :: rest) ∧
      Principal.IsValid identity ∧ Introduces own.own hello identity ca ∧
      store.find identity = .ok key ∧ Discloses key line ca cb secrets ∧ written rest = [] ∧
      ∀ secured, r = .ok secured → o = .ok () ∧
        secured = ⟨⟨secrets, .responder, 0, 1⟩, [.base64], identity⟩ ∧
        ∃ confirm, rest = [.received (some limit) (.ok confirm)] ∧ Confirms secrets confirm cb := by
  rcases respond_stages h with h₁ | ⟨hello, identity, ca, key, cb, secrets, answers, line, o, rest,
    tail, rfl, hi, hh, hf, hl, htail, hok, hrest⟩
  · exact .inl h₁
  refine .inr ⟨hello, identity, ca, key, cb, secrets, answers, line, o, rest ++ tail, rfl, hi, hh, hf,
    hl, ?_⟩
  rcases hrest with ⟨rfl, e, rfl, -⟩ | ⟨rfl, h₁⟩
  · exact ⟨htail, fun _ he => by cases he⟩
  · obtain ⟨o, rfl, hsec⟩ := runs_awaitConfirmation (by rfl) (by rfl) h₁
    refine ⟨htail, fun secured hs => ?_⟩
    obtain ⟨rfl, confirm, rfl, hc⟩ := hsec secured hs
    exact ⟨rfl, rfl, confirm, by rw [hok _ hs, List.append_nil], hc⟩

/-- A line confirms one challenge. -/
theorem Confirms.unique {line : Bytes} (h : Confirms secrets line cb)
    (h' : Confirms secrets line c) : cb = c := by
  obtain ⟨x, text, rfl, hx, ht⟩ := h
  obtain ⟨x', text', hline, hx', ht'⟩ := h'
  obtain rfl : x = x' := Base64.encodeLine_injective hline
  obtain rfl := Utf8.encode_injective (Except.ok.inj (hx.symm.trans hx'))
  rw [← Message.encode_confirm, ← Message.parseConfirm_eq_ok_iff] at ht ht'
  exact Except.ok.inj (ht.symm.trans ht')

/-! ## Courses that can be taken -/

theorem runs_say {recipient : PublicKey} {text : String} {box : Bytes} {answers : List Draw.Answer}
    (hk : keys.opposite = some recipient)
    (hb : (SealedBox.sealTo recipient (Utf8.encode text)).run.Runs answers (.ok box)) :
    (Channel.say [.asymmetric keys, .base64] text).run.Runs
      (draws answers ++ [.sent (Base64.encodeLine box) (.ok ())])
      (.ok [.asymmetric keys, .base64]) := by
  rw [Channel.say_asymmetric keys text hk]
  exact (Dialogue.runs_ofDraw_iff.2 ⟨answers, rfl, hb⟩).bind (.send (.ok ()) (.done _))

/-- A reply that echoes the challenge is confirmed. -/
theorem runs_awaitReply_of_echoes {reply confirm : Bytes} (he : Echoes keys.own reply c cb secrets)
    (hc : Returns secrets confirm cb) :
    (awaitReply ⟨identity, .challengeSent c⟩ [.asymmetric keys, .base64] identity limit).run.Runs
      [.received (some limit) (.ok reply), .sent confirm (.ok ())]
      (.ok ⟨⟨secrets, .initiator, 1, 0⟩, [.base64], identity⟩) := by
  obtain ⟨box, rfl, hbox⟩ := he
  obtain ⟨x, rfl, hx⟩ := hc
  have hheard := Channel.unbox_eq_ok_iff.2 ⟨box, rfl, hbox⟩
  have henc : (SessionCipher.new secrets .initiator).encrypt
      (Utf8.encode (Message.confirm cb).encode) = (.ok x, ⟨secrets, .initiator, 1, 0⟩) :=
    SessionCipher.encrypt_of_ok hx
  refine Exchange.runs_bind_iff.2 (.inr ⟨[.received (some limit) (.ok _)], [.sent _ (.ok ())],
    ((Message.accept c cb secrets).encode, [.asymmetric keys, .base64]), rfl, ?_, ?_⟩)
  · refine Exchange.runs_adapt_iff.2 ⟨_, (Channel.runs_hear_asymmetric_iff _ _).2 ⟨_, rfl, rfl⟩, ?_⟩
    rw [hheard]
    rfl
  · dsimp only
    rw [Initiator.onReply_of_accept rfl]
    show (confirmOver secrets [.base64] (.confirm cb) identity).run.Runs _ _
    refine Exchange.runs_bind_iff.2 (.inr ⟨[.sent _ (.ok ())], [],
      [.symmetric ⟨secrets, .initiator, 1, 0⟩, .base64], rfl, ?_, .done _⟩)
    rw [Channel.say_symmetric, henc]
    exact .send (.ok ()) (.done _)

/-- An initiator whose challenge is echoed logs in. -/
theorem runs_initiate (hi : Principal.IsValid identity) (hk : keys.opposite = some key)
    {box reply confirm : Bytes} {answers : List Draw.Answer}
    (hb : (SealedBox.sealTo key
      (Utf8.encode (Message.authenticate identity c).encode)).run.Runs answers (.ok box))
    (he : Echoes keys.own reply c cb secrets) (hc : Returns secrets confirm cb) :
    (initiate keys [.base64] identity limit).Runs
      (.filled 32 (some c.block) :: draws answers ++ [.sent (Base64.encodeLine box) (.ok ()),
        .received (some limit) (.ok reply), .sent confirm (.ok ())])
      (.ok ⟨⟨secrets, .initiator, 1, 0⟩, [.base64], identity⟩) := by
  rw [initiate_eq hk hi]
  refine Exchange.runs_orClose_iff.2 (.inl ⟨_, rfl, ?_⟩)
  rw [introduce_eq]
  refine .fill (some c.block) ?_
  exact Exchange.runs_bind_iff.2 (.inr ⟨draws answers ++ [.sent _ (.ok ())], _, _, by simp,
    runs_say hk hb, runs_awaitReply_of_echoes he hc⟩)

/-- The challenge that was sent is believed. -/
theorem runs_awaitConfirmation_of_confirms {confirm : Bytes} (hc : Confirms secrets confirm cb) :
    (awaitConfirmation ⟨some identity, .awaitingConfirmation cb⟩ secrets [.base64] limit).run.Runs
      [.received (some limit) (.ok confirm)]
      (.ok ⟨⟨secrets, .responder, 0, 1⟩, [.base64], identity⟩) := by
  obtain ⟨x, text, rfl, hx, htext⟩ := hc
  have hdec : Channel.decipher (.new secrets .responder) (.ok (Base64.encodeLine x)) =
      .ok (text, ⟨secrets, .responder, 0, 1⟩) :=
    Channel.decipher_eq_ok_iff.2 ⟨x, rfl, hx, rfl⟩
  have hconfirm : Responder.verifyConfirm ⟨some identity, .awaitingConfirmation cb⟩ text =
      .ok identity := by
    refine Responder.verifyConfirm_eq_ok_iff.2 ⟨cb, rfl, rfl, ?_⟩
    rw [Message.parseConfirm_eq_ok_iff, Message.encode_confirm, htext]
  refine Exchange.runs_bind_iff.2 (.inr ⟨[.received (some limit) (.ok _)], [],
    (text, [.symmetric ⟨secrets, .responder, 0, 1⟩, .base64]), rfl, ?_, ?_⟩)
  · refine (Channel.runs_hear_symmetric_iff _ _).2 ⟨_, rfl, ?_⟩
    rw [hdec]
    rfl
  · refine Exchange.runs_bind_iff.2 (.inr ⟨[], [], identity, rfl, ?_, .done _⟩)
    exact Exchange.runs_ofOutcome_iff.2 ⟨rfl, hconfirm.symm⟩

/-- A responder that has its challenge back believes whom it has heard. -/
theorem runs_respond (hi : Principal.IsValid identity) {hello box confirm : Bytes}
    {answers : List Draw.Answer} (hh : Introduces own.own hello identity ca)
    (hf : store.find identity = .ok key)
    (hb : (SealedBox.sealTo key
      (Utf8.encode (Message.accept ca cb secrets).encode)).run.Runs answers (.ok box))
    (hc : Confirms secrets confirm cb) :
    (respond own [.base64] store first limit).Runs
      (.received first (.ok hello) :: .filled 32 (some cb.block) ::
        .filled 32 (some secrets.key.block) :: .filled 16 (some secrets.iv.block) ::
          (draws answers ++ [.sent (Base64.encodeLine box) (.ok ()),
            .received (some limit) (.ok confirm)]))
      (.ok ⟨⟨secrets, .responder, 0, 1⟩, [.base64], identity⟩) := by
  have hheard : heard own.own store (.ok hello) = .ok (identity, ca, key) :=
    heard_eq_ok_iff.2 ⟨hi, ⟨hello, rfl, hh⟩, hf⟩
  let keys : SealingKeys := { own with opposite := some key }
  rw [respond_eq]
  refine Exchange.runs_orClose_iff.2 (.inl ⟨_, rfl, ?_⟩)
  rw [hearAndAnswer_eq]
  refine .receive (.ok hello) ?_
  rw [hheard]
  show (answerAndWait keys [.base64] ⟨some identity, .init⟩ ca limit).run.Runs _ _
  rw [answerAndWait_eq]
  refine .fill (some cb.block) (.fill (some secrets.key.block) (.fill (some secrets.iv.block) ?_))
  show (disclose keys [.base64] identity ca cb secrets limit).run.Runs _ _
  exact Exchange.runs_bind_iff.2 (.inr ⟨draws answers ++ [.sent _ (.ok ())], _, _, by simp,
    runs_say (show keys.opposite = some key from rfl) hb, runs_awaitConfirmation_of_confirms hc⟩)

end Handshake

end SealedChat
