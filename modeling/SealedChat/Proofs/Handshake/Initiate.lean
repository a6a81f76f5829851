import SealedChat.Proofs.Handshake.Respond

/-!
# What an initiator lets out

An initiator on a line of Base64 words, with the other side's key or without it, any name, any time
limit, any random bytes or none, and any line, end or silence that it meets.

It ends in one of two ways (`initiate_cases`). Either it fails, and the last thing that it has done
is to close the line; or its name is one, and it has sent two lines and read one between them. The
first line sent says who speaks and comes in a box for the other side's key; the line read is a box
for the initiator, and holds the challenge that was sent, a challenge of the other side, and the
secrets; the second line sent returns that challenge as the first message under these secrets.

Nothing is sent under any secrets before the reply has echoed the challenge, and nothing at all if
the other side's key is missing or the name is none.
-/

namespace SealedChat.Handshake

open Dialogue

variable [CipherSuite]

/-! ## Lines of an initiator -/

/-- The line is a box for the holder of `key` that says who speaks, with a challenge. -/
def Greets (key : PublicKey) (line : Bytes) (identity : String) (ca : Challenge) : Prop :=
  ∃ box, line = Base64.encodeLine box ∧
    SealedBox.Seals key (Utf8.encode (Message.authenticate identity ca).encode) box

/-- The line is a box for the holder of `own` that holds two challenges and the secrets. -/
def Echoes (own : PrivateKey) (line : Bytes) (ca cb : Challenge) (secrets : Secrets) : Prop :=
  ∃ box, line = Base64.encodeLine box ∧
    SealedBox.openWith own box = .ok (Utf8.encode (Message.accept ca cb secrets).encode)

/-- The line is a challenge, encrypted as the initiator's first message under the secrets. -/
def Returns (secrets : Secrets) (line : Bytes) (cb : Challenge) : Prop :=
  ∃ c, line = Base64.encodeLine c ∧
    SessionCrypt.encrypt secrets .initiator 0 (Utf8.encode (Message.confirm cb).encode) = .ok c

/-! ## The stages of an initiator -/

variable {keys : SealingKeys} {key : PublicKey} {limit : Duration} {identity : String}
  {ca cb : Challenge} {secrets : Secrets} {es : List Event} {r : Outcome Secured}

theorem runs_confirmOver
    (h : (confirmOver secrets [.base64] (.confirm cb) identity).run.Runs es r) :
    (∃ e, es = [] ∧ r = .error e) ∨ ∃ confirm o, es = [.sent confirm o] ∧
      Returns secrets confirm cb ∧
      r = o.map fun _ => ⟨⟨secrets, .initiator, 1, 0⟩, [.base64], identity⟩ := by
  rcases Exchange.runs_bind_iff.1 h with ⟨e, rfl, h₁⟩ | ⟨es₁, es₂, chain, rfl, h₁, h₂⟩
  · rcases Channel.runs_say_symmetric _ _ h₁ with ⟨_, rfl, -⟩ | ⟨c, o, rfl, ho, hc⟩
    · exact .inl ⟨e, rfl, rfl⟩
    · cases o with
      | error e' =>
        cases ho
        exact .inr ⟨_, .error e, rfl, ⟨c, rfl, hc⟩, rfl⟩
      | ok u => cases ho
  · rcases Channel.runs_say_symmetric _ _ h₁ with ⟨_, -, he⟩ | ⟨c, o, rfl, ho, hc⟩
    · cases he
    · cases o with
      | error e' => cases ho
      | ok u =>
        cases ho
        obtain ⟨rfl, rfl⟩ := runs_done_iff.1 h₂
        exact .inr ⟨_, .ok u, rfl, ⟨c, rfl, hc⟩, rfl⟩

/-- Nothing is sent before a reply has echoed the challenge. -/
theorem runs_awaitReply {machine : Initiator} (hp : machine.phase = .challengeSent ca)
    (h : (awaitReply machine [.asymmetric keys, .base64] identity limit).run.Runs es r) :
    ∃ o rest, es = .received (some limit) o :: rest ∧ ((rest = [] ∧ ∃ e, r = .error e) ∨
      ∃ reply confirm o' cb secrets, o = .ok reply ∧ rest = [.sent confirm o'] ∧
        Echoes keys.own reply ca cb secrets ∧ Returns secrets confirm cb ∧
        r = o'.map fun _ => ⟨⟨secrets, .initiator, 1, 0⟩, [.base64], identity⟩) := by
  rcases Exchange.runs_bind_iff.1 h with ⟨e, rfl, h₁⟩ | ⟨es₁, es₂, ⟨text, chain⟩, rfl, h₁, h₂⟩
  · obtain ⟨_, h₁, -⟩ := Exchange.runs_adapt_iff.1 h₁
    obtain ⟨o, rfl, -⟩ := (Channel.runs_hear_asymmetric_iff _ _).1 h₁
    exact ⟨o, [], rfl, .inl ⟨rfl, e, rfl⟩⟩
  obtain ⟨o', h₁, ho'⟩ := Exchange.runs_adapt_iff.1 h₁
  obtain ⟨o, rfl, rfl⟩ := (Channel.runs_hear_asymmetric_iff _ _).1 h₁
  refine ⟨o, es₂, rfl, ?_⟩
  cases hu : Channel.unbox keys.own o with
  | error e =>
    rw [hu] at ho'
    cases ho'
  | ok heard =>
    rw [hu] at ho'
    cases ho'
    obtain ⟨box, rfl, hbox⟩ := Channel.unbox_eq_ok_iff.1 hu
    rcases machine.onReply_cases text with ⟨ca', cb, s, hp', rfl, hr⟩ | ⟨e, hr⟩
    · rw [hp] at hp'
      cases hp'
      simp only [hr] at h₂
      rcases runs_confirmOver h₂ with ⟨e, rfl, rfl⟩ | ⟨confirm, o', rfl, hc, rfl⟩
      · exact .inl ⟨rfl, e, rfl⟩
      · exact .inr ⟨_, confirm, o', cb, s, rfl, rfl, ⟨box, rfl, hbox⟩, hc, rfl⟩
    · simp only [hr] at h₂
      obtain ⟨rfl, rfl⟩ := runs_done_iff.1 h₂
      exact .inl ⟨rfl, e, rfl⟩

/-- An initiator that goes on to wait for a reply has sent one line. -/
theorem runs_introduce {machine : Initiator} (hk : keys.opposite = some key)
    (hp : machine.phase = .init)
    (h : (introduce keys [.base64] machine machine.identity limit).run.Runs es r) :
    (∃ answers e, es = draws answers ∧ r = .error e) ∨
    ∃ answers hello o rest ca, es = draws answers ++ .sent hello o :: rest ∧
      Greets key hello machine.identity ca ∧
      ((rest = [] ∧ ∃ e, r = .error e) ∨ o = .ok () ∧
        (awaitReply { machine with phase := .challengeSent ca } [.asymmetric keys, .base64]
          machine.identity limit).run.Runs rest r) := by
  rcases Exchange.runs_bind_iff.1 h with ⟨e, rfl, h₁⟩ | ⟨es₁, es₂, ⟨hello, machine'⟩, rfl, h₁, h₂⟩
  · obtain ⟨_, _, he, -⟩ := Exchange.runs_ofDraw_iff.1 h₁
    cases he
  obtain ⟨_, answers, he, rfl, hdraw⟩ := Exchange.runs_ofDraw_iff.1 h₁
  cases he
  rcases Exchange.runs_bind_iff.1 h₂ with ⟨e, rfl, h₃⟩ | ⟨es₃, es₄, m, rfl, h₃, h₄⟩
  · obtain ⟨rfl, -⟩ := Exchange.runs_ofOutcome_iff.1 h₃
    exact .inl ⟨answers, e, by rw [List.append_nil], rfl⟩
  obtain ⟨rfl, rfl⟩ := Exchange.runs_ofOutcome_iff.1 h₃
  rcases Initiator.runs_start hdraw with ⟨ca, hm⟩ | hm
  swap
  · cases hm
  rw [Initiator.startWith_of_init hp] at hm
  cases hm
  rcases Channel.runs_say_asymmetric_bind keys _ hk h₄ with
    ⟨answers', e, rfl, rfl⟩ | ⟨answers', box, o, rest, rfl, hseal, hrest⟩
  · exact .inl ⟨answers ++ answers', e, (draws_append _ _).symm, rfl⟩
  · refine .inr ⟨answers ++ answers', _, o, rest, ca, ?_, ⟨box, rfl, answers', hseal⟩,
      hrest.imp_left fun ⟨hnil, e, he, _⟩ => ⟨hnil, e, he⟩⟩
    rw [draws_append, List.nil_append, List.append_assoc]

/-! ## The whole -/

/-- Without a key for the other side, or with a name that is none, only the line is closed. -/
theorem initiate_of_refused (h : keys.opposite = none ∨ ¬Principal.IsValid identity)
    (inner : Channel) (limit : Duration) :
    ∃ e, initiate keys inner identity limit = .close (.done (.error e)) := by
  cases hk : keys.opposite with
  | none => exact ⟨.serverKeyMissing, by rw [initiate, hk]; rfl⟩
  | some key =>
    have hi : ¬Principal.IsValid identity := h.resolve_left (by rw [hk]; exact Option.some_ne_none key)
    have hnew : Initiator.new identity = .error (Principal.invalid identity) := by
      rw [Initiator.new, Principal.check, if_neg hi]
      rfl
    exact ⟨Principal.invalid identity, by rw [initiate, hk, hnew]; rfl⟩

/-- An initiator that knows the other side's key sends nothing, or says who it is and fails, or reads
a reply that echoes its challenge and sends one line more, on which alone it depends how it ends. -/
theorem introduce_cases (hk : keys.opposite = some key)
    (h : (introduce keys [.base64] ⟨identity, .init⟩ identity limit).run.Runs es r) :
    (∃ e, r = .error e ∧ written es = []) ∨
    ∃ answers hello ca, Greets key hello identity ca ∧
      ((∃ e, r = .error e ∧ written es = [hello]) ∨
      ∃ reply confirm o cb secrets,
        es = draws answers ++ [.sent hello (.ok ()), .received (some limit) (.ok reply),
          .sent confirm o] ∧
        Echoes keys.own reply ca cb secrets ∧ Returns secrets confirm cb ∧
        r = o.map fun _ => ⟨⟨secrets, .initiator, 1, 0⟩, [.base64], identity⟩) := by
  rcases runs_introduce hk (by rfl) h with
    ⟨answers, e, rfl, rfl⟩ | ⟨answers, hello, o, rest, ca, rfl, hg, ⟨rfl, e, rfl⟩ | ⟨rfl, h₁⟩⟩
  · exact .inl ⟨e, rfl, written_draws answers⟩
  · exact .inr ⟨answers, hello, ca, hg, .inl ⟨e, rfl, by simp⟩⟩
  · rcases runs_awaitReply (by rfl) h₁ with
      ⟨o, rest', rfl, ⟨rfl, e, rfl⟩ | ⟨reply, confirm, o', cb, secrets, rfl, rfl, he, hc, rfl⟩⟩
    · exact .inr ⟨answers, hello, ca, hg, .inl ⟨e, rfl, by simp⟩⟩
    · exact .inr ⟨answers, hello, ca, hg, .inr ⟨reply, confirm, o', cb, secrets, rfl, he, hc, rfl⟩⟩

/-- **An initiator fails and hangs up, or has proof of who is there.** Either way nothing is sent
under secrets that did not come in a box with the challenge that was sent. -/
theorem initiate_cases (h : (initiate keys [.base64] identity limit).Runs es r) :
    (∃ e es', r = .error e ∧ es = es' ++ [.closed] ∧
      (keys.opposite = none ∨ ¬Principal.IsValid identity → es' = []) ∧
      (written es = [] ∨ ∃ key hello ca, keys.opposite = some key ∧
        Greets key hello identity ca ∧ (written es = [hello] ∨
          ∃ answers reply confirm cb secrets e', es = draws answers ++ [.sent hello (.ok ()),
              .received (some limit) (.ok reply), .sent confirm (.error e'), .closed] ∧
            Echoes keys.own reply ca cb secrets ∧ Returns secrets confirm cb))) ∨
    ∃ key answers hello reply confirm ca cb secured, r = .ok secured ∧
      Principal.IsValid identity ∧ keys.opposite = some key ∧
      es = draws answers ++ [.sent hello (.ok ()), .received (some limit) (.ok reply),
        .sent confirm (.ok ())] ∧
      Greets key hello identity ca ∧ Echoes keys.own reply ca cb secured.secrets ∧
      Returns secured.secrets confirm cb ∧
      secured = ⟨⟨secured.secrets, .initiator, 1, 0⟩, [.base64], identity⟩ := by
  by_cases href : keys.opposite = none ∨ ¬Principal.IsValid identity
  · left
    obtain ⟨e, heq⟩ := initiate_of_refused href [.base64] limit
    rw [heq] at h
    obtain ⟨rest, rfl, h₁⟩ := runs_close_iff.1 h
    obtain ⟨rfl, rfl⟩ := runs_done_iff.1 h₁
    exact ⟨e, [], rfl, rfl, fun _ => rfl, .inl rfl⟩
  have hi : Principal.IsValid identity := not_not.1 fun hi => href (.inr hi)
  obtain ⟨key, hk⟩ : ∃ key, keys.opposite = some key :=
    Option.ne_none_iff_exists'.1 fun hk => href (.inl hk)
  rw [initiate_eq hk hi, Exchange.runs_orClose_iff] at h
  rcases h with ⟨secured, rfl, h₁⟩ | ⟨e, es', rfl, rfl, h₁⟩
  · right
    rcases introduce_cases hk h₁ with ⟨_, he, -⟩ | ⟨answers, hello, ca, hg, ⟨_, he, -⟩ |
      ⟨reply, confirm, o, cb, secrets, rfl, he, hc, hr⟩⟩
    · cases he
    · cases he
    cases o with
    | error e => cases hr
    | ok u =>
      cases hr
      exact ⟨key, answers, hello, reply, confirm, ca, cb, _, rfl, hi, hk, rfl, hg, he, hc, rfl⟩
  · left
    refine ⟨e, es', rfl, rfl, fun h' => absurd h' href, ?_⟩
    rcases introduce_cases hk h₁ with ⟨_, -, hw⟩ | ⟨answers, hello, ca, hg, ⟨_, -, hw⟩ |
      ⟨reply, confirm, o, cb, secrets, rfl, he, hc, hr⟩⟩
    · exact .inl (by simp [hw])
    · exact .inr ⟨key, hello, ca, hk, hg, .inl (by simp [hw])⟩
    cases o with
    | ok u => cases hr
    | error e' =>
      refine .inr ⟨key, hello, ca, hk, hg, .inr ⟨answers, reply, confirm, cb, secrets, e', ?_,
        he, hc⟩⟩
      rw [List.append_assoc]
      rfl

omit [CipherSuite] in
/-- Somebody introduces itself to a server that knows its key, and the reply echoes its challenge. -/
theorem initiate_cases_of_honest :
    ∃ (suite : CipherSuite) (client server : PrivateKey) (es : List Event) (secured : Secured),
      suite = .between client.block server.block ∧
      (initiate ⟨client, some server.publicKey⟩ [.base64] "alice" (.ofSeconds 5)).Runs es
        (.ok secured) ∧
      ∃ answers hello reply confirm ca cb,
        es = draws answers ++ [.sent hello (.ok ()),
          .received (some (.ofSeconds 5)) (.ok reply), .sent confirm (.ok ())] ∧
        Greets server.publicKey hello "alice" ca ∧ Echoes client reply ca cb secured.secrets ∧
        Returns secured.secrets confirm cb := by
  let client : PrivateKey := ⟨.zero 32⟩
  let server : PrivateKey := ⟨.ofPrefix 32 [1]⟩
  let suite := CipherSuite.between client.block server.block
  let store := KeyRing.toStore ⟨[("alice", client.publicKey)]⟩
  have hv : Principal.IsValid "alice" := by decide
  have hstore : store.find "alice" = .ok client.publicKey := rfl
  have hconverse : Converse 1024 1024 _
      (initiate ⟨client, some server.publicKey⟩ [.base64] "alice" (.ofSeconds 5))
      (respond ⟨server, none⟩ [.base64] store none (.ofSeconds 5)) [] [] :=
    converse_initiate_respond (CipherSuite.lawful_between client.block server.block)
      (Nat.le_refl 1024) (Nat.le_refl 1024) hv hstore none (.ofSeconds 5) (.ofSeconds 5) none
  obtain ⟨es, -, o, -, h, -, secured, -, rfl, -, -⟩ := hconverse.exists_runs
  refine ⟨suite, client, server, es, secured, rfl, h, ?_⟩
  rcases initiate_cases h with ⟨_, _, he, -⟩ |
    ⟨key, answers, hello, reply, confirm, ca, cb, _, hr, -, hk, rfl, hg, he, hc, -⟩
  · cases he
  · cases hr
    cases hk
    exact ⟨answers, hello, reply, confirm, ca, cb, rfl, hg, he, hc⟩

end SealedChat.Handshake
