import SealedChat.Proofs.Handshake.Honest

/-!
# What a responder lets out

A responder on a line of Base64 words, with any keys, any key store, any time limits, any random
bytes or none, and any line, end or silence that it meets.

It ends in one of two ways (`respond_cases`). Either it fails, has closed the line, and has sent at
most one line; or it has read two lines and sent one between them. The first line read says who
speaks and comes in a box for the responder; the line sent is a box for the key of that principal,
and holds the challenge that was read, a challenge of the responder's own, and the secrets; the
second line read returns the responder's challenge as the first message under these secrets.

Whatever happens, the line that was sent is such a box, so the secrets are nowhere else.
-/

namespace SealedChat

namespace Dialogue

def Event.written? : Event → Option Bytes
  | .sent line _ => some line
  | _ => none

/-- The lines that were sent, whether they have arrived or not. -/
def written (es : List Event) : List Bytes := es.filterMap Event.written?

@[simp] theorem written_nil : written [] = [] := rfl

@[simp] theorem written_append (es es' : List Event) :
    written (es ++ es') = written es ++ written es' :=
  List.filterMap_append

@[simp] theorem written_received (limit : Option Duration) (o : Outcome Bytes) (es : List Event) :
    written (.received limit o :: es) = written es := rfl

@[simp] theorem written_sent (line : Bytes) (o : Outcome Unit) (es : List Event) :
    written (.sent line o :: es) = line :: written es := rfl

@[simp] theorem written_closed (es : List Event) : written (.closed :: es) = written es := rfl

@[simp] theorem written_draws (answers : List Draw.Answer) : written (draws answers) = [] := by
  induction answers with
  | nil => rfl
  | cons a answers ih => exact ih

end Dialogue

namespace Handshake

open Dialogue

variable [CipherSuite]

/-! ## Lines of a handshake -/

/-- The line is a box for the holder of `own` that says who speaks, with a challenge. -/
def Introduces (own : PrivateKey) (line : Bytes) (identity : String) (ca : Challenge) : Prop :=
  ∃ box, line = Base64.encodeLine box ∧
    SealedBox.openWith own box = .ok (Utf8.encode (Message.authenticate identity ca).encode)

/-- The line is a box for the holder of `key` that holds two challenges and the secrets. -/
def Discloses (key : PublicKey) (line : Bytes) (ca cb : Challenge) (secrets : Secrets) : Prop :=
  ∃ box, line = Base64.encodeLine box ∧
    SealedBox.Seals key (Utf8.encode (Message.accept ca cb secrets).encode) box

/-- The line returns a challenge as the initiator's first message under the secrets. -/
def Confirms (secrets : Secrets) (line : Bytes) (cb : Challenge) : Prop :=
  ∃ c text, line = Base64.encodeLine c ∧
    SessionCrypt.decrypt secrets .initiator 0 c = .ok (Utf8.encode text) ∧
    String.ofList (Blank.trim text.toList) = cb.toBase64

/-- The responder's answer to a line: it goes to the key of whom the line introduces. -/
def Answers (own : PrivateKey) (store : KeyStore) (hello line : Bytes) (identity : String)
    (cb : Challenge) (secrets : Secrets) : Prop :=
  ∃ ca key, Introduces own hello identity ca ∧ store.find identity = .ok key ∧
    Discloses key line ca cb secrets

/-! ## The stages of a responder -/

section

variable {machine : Responder} {secrets : Secrets} {limit : Duration} {identity : String}
  {cb : Challenge} {es : List Event} {r : Outcome Secured}

theorem runs_awaitConfirmation (hp : machine.phase = .awaitingConfirmation cb)
    (hd : machine.declared = some identity)
    (h : (awaitConfirmation machine secrets [.base64] limit).run.Runs es r) :
    ∃ o, es = [.received (some limit) o] ∧ ∀ secured, r = .ok secured →
      secured = ⟨⟨secrets, .responder, 0, 1⟩, [.base64], identity⟩ ∧
        ∃ line, o = .ok line ∧ Confirms secrets line cb := by
  rcases Exchange.runs_bind_iff.1 h with ⟨e, rfl, h₁⟩ | ⟨es₁, es₂, ⟨text, channel⟩, rfl, h₁, h₂⟩
  · obtain ⟨o, rfl, -⟩ := (Channel.runs_hear_symmetric_iff _ _).1 h₁
    exact ⟨o, rfl, by rintro _ ⟨⟩⟩
  · obtain ⟨o, rfl, ho⟩ := (Channel.runs_hear_symmetric_iff _ _).1 h₁
    obtain ⟨⟨_, cipher⟩, hdec, hchan⟩ := Outcome.map_eq_ok_iff.1 ho.symm
    cases hchan
    rcases Exchange.runs_bind_iff.1 h₂ with ⟨e, rfl, h₃⟩ | ⟨es₃, es₄, name, rfl, h₃, h₄⟩
    · obtain ⟨rfl, -⟩ := Exchange.runs_ofOutcome_iff.1 h₃
      exact ⟨o, rfl, by rintro _ ⟨⟩⟩
    · obtain ⟨rfl, hconf⟩ := Exchange.runs_ofOutcome_iff.1 h₃
      obtain ⟨rfl, rfl⟩ := runs_done_iff.1 h₄
      refine ⟨o, rfl, fun secured hs => ?_⟩
      cases hs
      obtain ⟨c, hcb, hname, htext⟩ := Responder.verifyConfirm_eq_ok_iff.1 hconf.symm
      rw [hp] at hcb
      cases hcb
      rw [hd] at hname
      cases hname
      obtain ⟨c, rfl, hplain, rfl⟩ := Channel.decipher_eq_ok_iff.1 hdec
      rw [Message.parseConfirm_eq_ok_iff, Message.encode_confirm] at htext
      exact ⟨rfl, _, rfl, c, _, rfl, hplain, htext⟩

end

section

variable {keys : SealingKeys} {key : PublicKey} {machine : Responder} {limit : Duration}
  {identity : String} {ca : Challenge} {es : List Event} {r : Outcome Secured}

theorem runs_answerAndWait (hk : keys.opposite = some key)
    (hd : machine.declared = some identity)
    (h : (answerAndWait keys [.base64] machine ca limit).run.Runs es r) :
    (∃ answers e, es = draws answers ∧ r = .error e) ∨
    ∃ answers line cb secrets, Discloses key line ca cb secrets ∧
      ((∃ o e, es = draws answers ++ [.sent line o] ∧ r = .error e) ∨
      ∃ o, es = draws answers ++ [.sent line (.ok ()), .received (some limit) o] ∧
        ∀ secured, r = .ok secured →
          secured = ⟨⟨secrets, .responder, 0, 1⟩, [.base64], identity⟩ ∧
            ∃ line, o = .ok line ∧ Confirms secrets line cb) := by
  rcases Exchange.runs_bind_iff.1 h with
    ⟨e, rfl, h₁⟩ | ⟨es₁, es₂, ⟨answer, machine'⟩, rfl, h₁, h₂⟩
  · obtain ⟨_, _, he, -⟩ := Exchange.runs_ofDraw_iff.1 h₁
    cases he
  obtain ⟨_, answers, he, rfl, hdraw⟩ := Exchange.runs_ofDraw_iff.1 h₁
  cases he
  rcases Exchange.runs_bind_iff.1 h₂ with ⟨e, rfl, h₃⟩ | ⟨es₃, es₄, ⟨secrets, m⟩, rfl, h₃, h₄⟩
  · obtain ⟨rfl, -⟩ := Exchange.runs_ofOutcome_iff.1 h₃
    exact .inl ⟨answers, e, by rw [List.append_nil], rfl⟩
  obtain ⟨rfl, rfl⟩ := Exchange.runs_ofOutcome_iff.1 h₃
  obtain ⟨cb, s, -, -, hmachine⟩ | ⟨e, he⟩ := Responder.runs_reply hdraw
  swap
  · cases he
  cases hmachine
  rcases Channel.runs_say_asymmetric_bind keys _ hk h₄ with
    ⟨answers', e, rfl, rfl⟩ | ⟨answers', box, o, rest, rfl, hseal, ⟨rfl, e, rfl, -⟩ | ⟨rfl, h₅⟩⟩
  · exact .inl ⟨answers ++ answers', e, (draws_append _ _).symm, rfl⟩
  · refine .inr ⟨answers ++ answers', _, cb, secrets, ⟨box, rfl, answers', hseal⟩,
      .inl ⟨o, e, ?_, rfl⟩⟩
    rw [draws_append, List.nil_append, List.append_assoc]
  · obtain ⟨o, rfl, hsec⟩ := runs_awaitConfirmation (by rfl) (by exact hd) h₅
    refine .inr ⟨answers ++ answers', _, cb, secrets, ⟨box, rfl, answers', hseal⟩,
      .inr ⟨o, ?_, hsec⟩⟩
    rw [draws_append, List.nil_append, List.append_assoc]

end

/-! ## The whole -/

variable {own : SealingKeys} {store : KeyStore} {first : Option Duration} {limit : Duration}
  {es : List Event} {r : Outcome Secured}

/-- Nothing is sent before the first line has introduced somebody whose key is known. -/
theorem runs_hearAndAnswer (h : (hearAndAnswer own [.base64] store first limit).run.Runs es r) :
    (∃ o e, es = [.received first o] ∧ r = .error e) ∨
    ∃ hello rest machine identity ca key, es = .received first (.ok hello) :: rest ∧
      Introduces own.own hello identity ca ∧ store.find identity = .ok key ∧
      machine.declared = some identity ∧
      (answerAndWait { own with opposite := some key } [.base64] machine ca limit).run.Runs rest r := by
  rcases Exchange.runs_bind_iff.1 h with ⟨e, rfl, h₁⟩ | ⟨es₁, es₂, ⟨text, chain⟩, rfl, h₁, h₂⟩
  · obtain ⟨o, rfl, -⟩ := (Channel.runs_hear_asymmetric_iff _ _).1 h₁
    exact .inl ⟨o, e, rfl, rfl⟩
  obtain ⟨o, rfl, ho⟩ := (Channel.runs_hear_asymmetric_iff _ _).1 h₁
  obtain ⟨_, hopen, hchain⟩ := Outcome.map_eq_ok_iff.1 ho.symm
  cases hchain
  obtain ⟨box, rfl, hbox⟩ := Channel.unbox_eq_ok_iff.1 hopen
  rcases Responder.onAuthenticate_cases .new text with
    ⟨identity, ca, -, -, -, rfl, hnew⟩ | ⟨e, hnew⟩
  · simp only [hnew] at h₂
    rcases Exchange.runs_bind_iff.1 h₂ with ⟨e, rfl, h₃⟩ | ⟨es₃, es₄, _, rfl, h₃, h₄⟩
    · obtain ⟨-, he⟩ := Exchange.runs_ofOutcome_iff.1 h₃
      cases he
    obtain ⟨rfl, he⟩ := Exchange.runs_ofOutcome_iff.1 h₃
    cases he
    rcases Exchange.runs_bind_iff.1 h₄ with ⟨e, rfl, h₅⟩ | ⟨es₅, es₆, key, rfl, h₅, h₆⟩
    · obtain ⟨rfl, -⟩ := Exchange.runs_ofOutcome_iff.1 h₅
      exact .inl ⟨_, e, rfl, rfl⟩
    obtain ⟨rfl, hkey⟩ := Exchange.runs_ofOutcome_iff.1 h₅
    exact .inr ⟨_, es₆, _, identity, ca, key, rfl, ⟨box, rfl, hbox⟩, hkey.symm, by rfl, h₆⟩
  · simp only [hnew] at h₂
    rcases Exchange.runs_bind_iff.1 h₂ with ⟨e, rfl, h₃⟩ | ⟨es₃, es₄, _, rfl, h₃, h₄⟩
    · obtain ⟨rfl, -⟩ := Exchange.runs_ofOutcome_iff.1 h₃
      exact .inl ⟨_, e, rfl, rfl⟩
    · obtain ⟨-, he⟩ := Exchange.runs_ofOutcome_iff.1 h₃
      cases he

/-- **A responder fails and hangs up, or has proof of who is there.** Either way the secrets are sent
in one box at most, and that is for the key of whom the first line introduced. -/
theorem respond_cases (h : (respond own [.base64] store first limit).Runs es r) :
    (∃ e es', r = .error e ∧ es = es' ++ [.closed] ∧
      (written es = [] ∨ ∃ hello rest line identity cb secrets,
        es = .received first (.ok hello) :: rest ∧ written es = [line] ∧
          Answers own.own store hello line identity cb secrets)) ∨
    ∃ hello answers line confirm cb secured, r = .ok secured ∧
      es = .received first (.ok hello) :: draws answers ++
        [.sent line (.ok ()), .received (some limit) (.ok confirm)] ∧
      Answers own.own store hello line secured.identity cb secured.secrets ∧
      Confirms secured.secrets confirm cb ∧
      secured = ⟨⟨secured.secrets, .responder, 0, 1⟩, [.base64], secured.identity⟩ := by
  rw [respond_eq, Exchange.runs_orClose_iff] at h
  rcases h with ⟨secured, rfl, h⟩ | ⟨e, es', rfl, rfl, h⟩
  · right
    rcases runs_hearAndAnswer h with ⟨_, _, _, he⟩ |
      ⟨hello, rest, machine, identity, ca, key, rfl, hi, hf, hd, h⟩
    · cases he
    rcases runs_answerAndWait rfl hd h with ⟨_, _, _, he⟩ |
      ⟨answers, line, cb, secrets, hl, ⟨_, _, _, he⟩ | ⟨o, rfl, ho⟩⟩
    · cases he
    · cases he
    obtain ⟨rfl, confirm, rfl, hc⟩ := ho secured rfl
    exact ⟨hello, answers, line, confirm, cb, _, rfl, rfl, ⟨ca, key, hi, hf, hl⟩, hc, rfl⟩
  · left
    refine ⟨e, es', rfl, rfl, ?_⟩
    rcases runs_hearAndAnswer h with ⟨o, _, rfl, -⟩ |
      ⟨hello, rest, machine, identity, ca, key, rfl, hi, hf, hd, h⟩
    · exact .inl rfl
    rcases runs_answerAndWait rfl hd h with ⟨answers, _, rfl, -⟩ |
      ⟨answers, line, cb, secrets, hl, ⟨o, _, rfl, -⟩ | ⟨o, rfl, -⟩⟩
    · left
      simp
    · exact .inr ⟨hello, _, line, identity, cb, secrets, rfl, by simp, ca, key, hi, hf, hl⟩
    · exact .inr ⟨hello, _, line, identity, cb, secrets, rfl, by simp, ca, key, hi, hf, hl⟩

omit [CipherSuite] in
/-- Somebody whose key is known introduces itself, and is believed. -/
theorem respond_cases_of_honest :
    ∃ (suite : CipherSuite) (client server : PrivateKey) (store : KeyStore) (es : List Event)
      (secured : Secured), suite = .between client.block server.block ∧
      (respond ⟨server, none⟩ [.base64] store none (.ofSeconds 5)).Runs es (.ok secured) ∧
      secured.identity = "alice" ∧
      ∃ hello answers line confirm cb,
        es = .received none (.ok hello) :: draws answers ++
          [.sent line (.ok ()), .received (some (.ofSeconds 5)) (.ok confirm)] ∧
        Answers server store hello line secured.identity cb secured.secrets ∧
        Confirms secured.secrets confirm cb := by
  let client : PrivateKey := ⟨.zero 32⟩
  let server : PrivateKey := ⟨.ofPrefix 32 [1]⟩
  let suite := CipherSuite.between client.block server.block
  let store := KeyRing.toStore ⟨[("alice", client.publicKey)]⟩
  have hv : Principal.IsValid "alice" := by decide
  have hstore : store.find "alice" = .ok client.publicKey := rfl
  have hconverse : Converse 1024 1024 _
      (initiate ⟨client, some server.publicKey⟩ [.base64] "alice" (.ofSeconds 5))
      (respond ⟨server, none⟩ [.base64] store none (.ofSeconds 5)) [] [] :=
    converse_initiate_respond (CipherSuite.lawful_between client.block server.block)
      (Nat.le_refl 1024) (Nat.le_refl 1024) hv hstore none (.ofSeconds 5) (.ofSeconds 5) none
  obtain ⟨-, es, -, o, -, h, -, secured, -, rfl, secrets, -, rfl⟩ := hconverse.exists_runs
  refine ⟨suite, client, server, store, es, _, rfl, h, rfl, ?_⟩
  rcases respond_cases h with ⟨_, _, he, -⟩ |
    ⟨hello, answers, line, confirm, cb, _, hr, rfl, ha, hc, -⟩
  · cases he
  · cases hr
    exact ⟨hello, answers, line, confirm, cb, rfl, ha, hc⟩

end Handshake

end SealedChat
