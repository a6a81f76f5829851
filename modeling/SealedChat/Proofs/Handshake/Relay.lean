import SealedChat.Proofs.Dialogue.Trace
import SealedChat.Proofs.Handshake.Course

/-!
# Logins and a dishonest third party

A client and a server, each with any number of calls that run side by side, and an intruder that has
a private key of its own. The intruder routes all lines. It can open what is sealed to its key, and
seal any text to anybody that it can write down; what it cannot do is to guess a block that somebody
else has drawn.

**Letters.** What a call means by a line that it sends (`Cast.Says`), and what a call makes of a line
that it receives (`Cast.Hears`): a message in a box for some key, or a confirmation under some
secrets.

**Runs** (`Cast.IsRun`). A letter that is heard has been posted as this very line, or the intruder
knows all blocks in it that have to be known: challenges and session keys. It knows what nobody has
drawn, and what it was sent. Nothing else is asked of the lines, so they may be kept back, replayed
or handed to anybody.

A block that was drawn is first let out by whom it was drawn, to a key of its choice, and the server
hands back the challenges that were sealed to its key. So the intruder knows a challenge only if it
was sealed to the intruder or to the server (`Cast.IsRun.exists_origin`), and never the secrets of a
session with somebody else. Hence a login that the server believes was meant for the server or for
the intruder (`Cast.respond_agreement`). That it was meant for the server does not follow: the reply
does not name the server, so the intruder can pass on a greeting that it was sent
(`Relay.respond_agreement_relayed`).
-/

namespace SealedChat

theorem Secrets.eq_of_blocks {s s' : Secrets} (hk : s.key.block = s'.key.block)
    (hv : s.iv.block = s'.iv.block) : s = s' := by
  obtain ⟨⟨k⟩, ⟨v⟩⟩ := s
  obtain ⟨⟨k'⟩, ⟨v'⟩⟩ := s'
  obtain ⟨rfl, rfl⟩ := And.intro hk hv
  rfl

namespace Handshake

open Dialogue

/-! ## Letters -/

namespace Message

/-- The blocks of a message that were drawn to be told to one other side only. -/
def guarded : Message → List (Block 32)
  | authenticate _ c => [c.block]
  | accept ca _ s => [ca.block, s.key.block]
  | confirm _ => []

/-- The guarded block that whoever says the message has drawn. -/
def own? : Message → Option (Block 32)
  | authenticate _ c => some c.block
  | accept _ _ s => some s.key.block
  | confirm _ => none

end Message

/-- What a line of a handshake means. -/
inductive Letter where
  | box (recipient : PublicKey) (m : Message)
  | confirmation (secrets : Secrets) (cb : Challenge)

/-- The blocks that one has to know to write the letter. -/
def Letter.guarded : Letter → List (Block 32)
  | box _ m => m.guarded
  | confirmation s _ => [s.key.block]

/-- The line is what the letter says. -/
def Letter.Fits [CipherSuite] : Letter → Bytes → Prop
  | box recipient m, line => ∃ sealed, line = Base64.encodeLine sealed ∧
      SealedBox.Seals recipient (Utf8.encode m.encode) sealed
  | confirmation s cb, line => Returns s line cb

/-! ## Runs -/

/-- A call of the client: to whom, and as whom. -/
structure Attempt where
  opposite : Option PublicKey
  identity : String
  limit : Duration

/-- A call of the server. -/
structure Admission where
  pinned : Option PublicKey
  store : KeyStore
  first : Option Duration
  limit : Duration

/-- A client and a server with their calls, and an intruder. -/
structure Cast (ι ρ : Type) where
  client : PrivateKey
  server : PrivateKey
  intruder : PrivateKey
  attempts : ι → Attempt
  admissions : ρ → Admission

namespace Cast

variable [CipherSuite] {ι ρ : Type} (c : Cast ι ρ)

def initiates (i : ι) : Dialogue (Outcome Secured) :=
  initiate ⟨c.client, (c.attempts i).opposite⟩ [.base64] (c.attempts i).identity
    (c.attempts i).limit

def responds (r : ρ) : Dialogue (Outcome Secured) :=
  respond ⟨c.server, (c.admissions r).pinned⟩ [.base64] (c.admissions r).store
    (c.admissions r).first (c.admissions r).limit

/-- What a call that has come so far means by the line that it sends next. -/
inductive Says : ι ⊕ ρ → List Event → Letter → Prop
  | hello {i : ι} {key : PublicKey} {ca : Challenge} {answers : List Draw.Answer} :
      (c.attempts i).opposite = some key →
      Says (.inl i) (.filled 32 (some ca.block) :: draws answers)
        (.box key (.authenticate (c.attempts i).identity ca))
  | confirm {i : ι} {ca cb : Challenge} {secrets : Secrets} {answers : List Draw.Answer}
      {hello reply : Bytes} {o : Outcome Unit} :
      Echoes c.client reply ca cb secrets →
      Says (.inl i) (.filled 32 (some ca.block) :: draws answers ++
        [.sent hello o, .received (some (c.attempts i).limit) (.ok reply)])
        (.confirmation secrets cb)
  | answer {r : ρ} {identity : String} {key : PublicKey} {ca cb : Challenge} {secrets : Secrets}
      {answers : List Draw.Answer} {hello : Bytes} :
      Principal.IsValid identity → Introduces c.server hello identity ca →
      (c.admissions r).store.find identity = .ok key →
      Says (.inr r) (.received (c.admissions r).first (.ok hello) :: .filled 32 (some cb.block) ::
        .filled 32 (some secrets.key.block) :: .filled 16 (some secrets.iv.block) :: draws answers)
        (.box key (.accept ca cb secrets))

/-- What a call that has come so far makes of the line that it receives next. -/
inductive Hears : ι ⊕ ρ → List Event → Bytes → Letter → Prop
  | reply {i : ι} {es : List Event} {line : Bytes} {m : Message} :
      m.IsValid → Channel.unbox c.client (.ok line) = .ok m.encode →
      Hears (.inl i) es line (.box c.client.publicKey m)
  | hello {r : ρ} {line : Bytes} {m : Message} :
      m.IsValid → Channel.unbox c.server (.ok line) = .ok m.encode →
      Hears (.inr r) [] line (.box c.server.publicKey m)
  | confirm {r : ρ} {limit : Option Duration} {o : Outcome Bytes} {x : Option (Block 32)}
      {secrets : Secrets} {es : List Event} {line : Bytes} {cb : Challenge} :
      Confirms secrets line cb →
      Hears (.inr r) (.received limit o :: .filled 32 x :: .filled 32 (some secrets.key.block) ::
        .filled 16 (some secrets.iv.block) :: es) line (.confirmation secrets cb)

variable [DecidableEq ι] [DecidableEq ρ]

/-- A call has sent the line, and has meant this by it. -/
def Posts (before : Trace (ι ⊕ ρ)) (p : ι ⊕ ρ) (line : Bytes) (letter : Letter) : Prop :=
  ∃ es o es', before.of p = es ++ .sent line o :: es' ∧ c.Says p es letter

/-- The intruder knows a block that no call ever draws, and one that was sealed to its key. -/
def Knows (τ before : Trace (ι ⊕ ρ)) (b : Block 32) : Prop :=
  τ.Drawn b → ∃ p line m, c.Posts before p line (.box c.intruder.publicKey m) ∧ b ∈ m.guarded

/-- Whoever finds a letter in a line finds what was put there: a call has posted it, or the intruder has
written it and knows what is in it. -/
def Carried (τ before : Trace (ι ⊕ ρ)) (p : ι ⊕ ρ) : Event → Prop
  | .received _ (.ok line) => ∀ letter, c.Hears p (before.of p) line letter →
      (∃ q, c.Posts before q line letter) ∨ ∀ b ∈ letter.guarded, c.Knows τ before b
  | _ => True

/-- Every call has begun, and the intruder has carried the lines. -/
structure IsRun (τ : Trace (ι ⊕ ρ)) : Prop where
  initiates : ∀ i, (c.initiates i).Begins (τ.of (.inl i))
  responds : ∀ r, (c.responds r).Begins (τ.of (.inr r))
  carried : τ.Along (c.Carried τ)

variable {c}

/-! ## Every line is a letter -/

variable {τ before after : Trace (ι ⊕ ρ)} {p q : ι ⊕ ρ} {es es' : List Event} {line line' : Bytes}
  {o : Outcome Unit} {key key' : PublicKey} {m m' : Message} {b : Block 32}

omit [DecidableEq ι] [DecidableEq ρ] in
theorem says_of_initiates {i : ι} {r : Outcome Secured}
    (h : (c.initiates i).Runs (es ++ .sent line o :: es') r) :
    ∃ letter, c.Says (.inl i) es letter ∧ letter.Fits line := by
  rcases initiate_course h with hw | ⟨key, ca, answers, hello, o', rest, -, hk, hes, hg, hrest⟩
  · exact absurd hw written_ne_nil
  rcases sent_cases _ hes (by simp) with ⟨rfl, rfl⟩ | ⟨mid, rfl, rfl⟩
  · exact ⟨_, .hello hk, hg⟩
  rcases hrest with hw | ⟨reply, confirm, o'', tail, cb, secrets, hmid, he, hc, htail⟩
  · exact absurd hw written_ne_nil
  rcases sent_cases [.received _ _] hmid rfl with ⟨rfl, rfl⟩ | ⟨mid', -, rfl⟩
  · exact ⟨_, .confirm he, hc⟩
  · exact absurd htail written_ne_nil

omit [DecidableEq ι] [DecidableEq ρ] in
theorem says_of_responds {r : ρ} {a : Outcome Secured}
    (h : (c.responds r).Runs (es ++ .sent line o :: es') a) :
    ∃ letter, c.Says (.inr r) es letter ∧ letter.Fits line := by
  rcases respond_course h with ⟨hw, -⟩ |
    ⟨hello, identity, ca, key, cb, secrets, answers, line', o', rest, hes, hi, hh, hf, hl, hrest, -⟩
  · exact absurd hw written_ne_nil
  rcases sent_cases (.received _ _ :: .filled _ _ :: .filled _ _ :: .filled _ _ ::
    draws answers) hes (by simp) with ⟨rfl, rfl⟩ | ⟨mid, -, rfl⟩
  · exact ⟨_, .answer hi hh hf, hl⟩
  · exact absurd hrest written_ne_nil

/-- **Every line that a call sends is a letter**, and is what it is meant to be. -/
theorem IsRun.exists_letter (h : c.IsRun τ) (hp : τ.of p = es ++ .sent line o :: es') :
    ∃ letter, c.Says p es letter ∧ letter.Fits line := by
  cases p with
  | inl i =>
    obtain ⟨rest, a, hrun⟩ := h.initiates i
    rw [hp, List.append_assoc] at hrun
    exact says_of_initiates hrun
  | inr r =>
    obtain ⟨rest, a, hrun⟩ := h.responds r
    rw [hp, List.append_assoc] at hrun
    exact says_of_responds hrun

/-! ## Where blocks come from -/

theorem Posts.append {letter : Letter} (h : c.Posts before p line letter)
    (after : Trace (ι ⊕ ρ)) : c.Posts (before ++ after) p line letter := by
  obtain ⟨es, o, es', hp, hs⟩ := h
  exact ⟨es, o, es' ++ after.of p, by simp [hp], hs⟩

/-- A guarded block in a box was let out by whom it was drawn: in this very box, in a greeting for the
server, or in a box for the intruder. -/
theorem IsRun.exists_origin (h : c.IsRun τ) (hτ : τ = before ++ after)
    (hp : c.Posts before p line (.box key m)) (hb : b ∈ m.guarded) (hd : τ.Drawn b) :
    ∃ q line' key' m', c.Posts τ q line' (.box key' m') ∧ m'.own? = some b ∧
      (key' = key ∧ m' = m ∨
        key' = c.server.publicKey ∧ (∃ identity ca, m' = .authenticate identity ca) ∨
        key' = c.intruder.publicKey) := by
  induction hn : before.length using Nat.strongRecOn generalizing before after p line key m with
  | ind n ih =>
    have hp' := hτ ▸ hp.append after
    obtain ⟨es, o, es', hof, hs⟩ := hp
    cases hs with
    | hello hk =>
      obtain rfl := List.mem_singleton.1 hb
      exact ⟨_, _, _, _, hp', rfl, .inl ⟨rfl, rfl⟩⟩
    | @answer r identity _ ca cb secrets answers hello hi hh hf =>
      rcases List.mem_pair.1 hb with rfl | rfl
      · -- the challenge was heard before
        obtain ⟨before', after', rfl, hnil, -⟩ := Trace.exists_of_of_eq_cons hof
        have hlt : before'.length < n := by simp [← hn]
        have hτ' : τ = before' ++ (.inr r, .received (c.admissions r).first (.ok hello)) ::
            (after' ++ after) := by
          rw [hτ, List.append_assoc, List.cons_append]
        obtain ⟨box, rfl, hbox⟩ := hh
        have hheard : c.Hears (.inr r) (before'.of (.inr r)) (Base64.encodeLine box)
            (.box c.server.publicKey (.authenticate identity ca)) := by
          rw [hnil]
          exact .hello hi (Channel.unbox_eq_ok_iff.2 ⟨box, rfl, hbox⟩)
        rcases h.carried.possible hτ' _ hheard with ⟨q, hq⟩ | hq
        · obtain ⟨q', line', key', m', hq', ho, hc⟩ :=
            ih _ hlt hτ' hq (List.mem_singleton.2 rfl) rfl
          refine ⟨q', line', key', m', hq', ho, .inr ?_⟩
          rcases hc with ⟨rfl, rfl⟩ | hc
          · exact .inl ⟨rfl, identity, ca, rfl⟩
          · exact hc
        · obtain ⟨q, line', m', hq, hb'⟩ := hq _ (List.mem_singleton.2 rfl) hd
          obtain ⟨q', line', key', m', hq', ho, hc⟩ := ih _ hlt hτ' hq hb' rfl
          refine ⟨q', line', key', m', hq', ho, .inr ?_⟩
          rcases hc with ⟨rfl, -⟩ | hc
          · exact .inr rfl
          · exact hc
      · exact ⟨_, _, _, _, hp', rfl, .inl ⟨rfl, rfl⟩⟩

theorem Posts.exists_drawn (hp : c.Posts τ p line (.box key m)) (hm : m.own? = some b) :
    ∃ es es', τ.of p = es ++ .filled 32 (some b) :: es' := by
  obtain ⟨es, o, es', hof, hs⟩ := hp
  cases hs with
  | hello hk =>
    obtain rfl := Option.some.inj hm
    exact ⟨[], _, hof⟩
  | @answer r _ _ _ cb _ answers hello hi hh hf =>
    obtain rfl := Option.some.inj hm
    exact ⟨[.received _ (.ok hello), .filled 32 (some cb.block)], _, hof⟩

/-- **A block that was drawn to be told is told in one letter.** -/
theorem Posts.unique (hfresh : τ.Fresh) (hp : c.Posts τ p line (.box key m))
    (hq : c.Posts τ q line' (.box key' m')) (hm : m.own? = some b) (hm' : m'.own? = some b) :
    p = q ∧ key = key' ∧ m = m' := by
  obtain ⟨es, es', hdrawn⟩ := hp.exists_drawn hm
  obtain ⟨fs, fs', hdrawn'⟩ := hq.exists_drawn hm'
  obtain ⟨rfl, -⟩ := hfresh.unique hdrawn hdrawn'
  obtain ⟨es, o, es', hof, hs⟩ := hp
  obtain ⟨fs, o', fs', hof', hs'⟩ := hq
  cases hs with
  | hello hk =>
    cases hs' with
    | hello hk' =>
      have hca := congrArg Challenge.mk (Option.some.inj (hm.trans hm'.symm))
      exact ⟨rfl, Option.some.inj (hk.symm.trans hk'), congrArg _ hca⟩
  | @answer r identity key ca cb secrets answers hello hi hh hfind =>
    cases hs' with
    | @answer r identity' key' ca' cb' secrets' answers' hello' hi' hh' hfind' =>
      obtain ⟨cb⟩ := cb
      obtain ⟨⟨k⟩, ⟨v⟩⟩ := secrets
      obtain ⟨cb'⟩ := cb'
      obtain ⟨⟨k'⟩, ⟨v'⟩⟩ := secrets'
      rw [hof] at hof'
      obtain ⟨rfl, rfl, rfl, rfl, -⟩ : hello = hello' ∧ cb = cb' ∧ k = k' ∧ v = v' ∧ _ := by
        simpa using hof'
      -- what was heard and whose key it is was read off the same line
      have hheard := heard_eq_ok_iff.2 ⟨hi, ⟨hello, rfl, hh⟩, hfind⟩
      have hheard' := heard_eq_ok_iff.2 ⟨hi', ⟨hello, rfl, hh'⟩, hfind'⟩
      rw [hheard] at hheard'
      cases hheard'
      exact ⟨rfl, rfl, rfl⟩

/-- The intruder never knows the secrets that the server has sent to somebody else. -/
theorem IsRun.not_knows (h : c.IsRun τ) (hfresh : τ.Fresh) (hτ : τ = before ++ after)
    {ca cb : Challenge} {s : Secrets} (hp : c.Posts τ p line (.box key (.accept ca cb s)))
    (hkey : key ≠ c.intruder.publicKey) : ¬c.Knows τ before s.key.block := by
  intro hk
  obtain ⟨es, es', hdrawn⟩ := hp.exists_drawn rfl
  have hd : τ.Drawn s.key.block := Trace.drawn_of_mem_of (p := p) (by simp [hdrawn])
  obtain ⟨q, line', m, hq, hm⟩ := hk hd
  obtain ⟨q', line', key', m', hq', hown, hcases⟩ := h.exists_origin hτ hq hm hd
  obtain ⟨rfl, rfl, rfl⟩ := hp.unique hfresh hq' rfl hown
  rcases hcases with ⟨rfl, -⟩ | ⟨-, _, _, hm'⟩ | rfl
  · exact hkey rfl
  · cases hm'
  · exact hkey rfl

/-- A login that sends a line after its greeting knows whom it is meant for. -/
theorem IsRun.posts_hello (h : c.IsRun τ) {i : ι} {ca : Challenge} {answers : List Draw.Answer}
    (hof : τ.of (.inl i) =
      .filled 32 (some ca.block) :: draws answers ++ .sent line o :: es') :
    ∃ key, (c.attempts i).opposite = some key ∧
      c.Posts τ (.inl i) line (.box key (.authenticate (c.attempts i).identity ca)) := by
  obtain ⟨letter, hs, -⟩ := h.exists_letter hof
  generalize hes : Event.filled 32 (some ca.block) :: draws answers = es at hs
  cases hs with
  | @hello _ key ca' _ hk =>
    have hca : ca = ca' := by
      cases ca
      cases ca'
      simpa using (List.cons.inj hes).1
    subst hca
    exact ⟨key, hk, _, o, es', hof, hes ▸ .hello hk⟩
  | confirm =>
    have hw := congrArg written hes
    simp at hw

/-- A login that confirms secrets that the server has sent to the client was meant for the server or
for the intruder. -/
theorem IsRun.opposite_of_confirmation (h : c.IsRun τ) (hfresh : τ.Fresh)
    (hne : c.client.publicKey ≠ c.intruder.publicKey) {ca cb cb' : Challenge} {s : Secrets}
    (hp : c.Posts τ p line (.box c.client.publicKey (.accept ca cb s))) {i : ι}
    (hc : c.Posts τ (.inl i) line' (.confirmation s cb')) :
    (c.attempts i).opposite = some c.server.publicKey ∨
      (c.attempts i).opposite = some c.intruder.publicKey := by
  obtain ⟨es, o, es', hof, hs⟩ := hc
  cases hs with
  | @confirm _ ca' _ _ answers hello reply o' he =>
    have hd : τ.Drawn ca'.block := Trace.drawn_of_mem_of (p := .inl i) (by simp [hof])
    obtain ⟨key, hk, hhello⟩ := h.posts_hello (List.append_assoc _ _ _ ▸ hof)
    rw [hk]
    -- the reply that was confirmed
    have hof' : τ.of (.inl i) = (.filled 32 (some ca'.block) :: draws answers ++ [.sent hello o']) ++
        .received (some (c.attempts i).limit) (.ok reply) :: .sent line' o :: es' := by
      rw [hof]
      simp
    obtain ⟨before, after, hτ, -, -⟩ := Trace.exists_of_of_eq hof'
    obtain ⟨box, rfl, hbox⟩ := he
    have hheard : c.Hears (.inl i) (before.of (.inl i)) (Base64.encodeLine box)
        (.box c.client.publicKey (.accept ca' cb' s)) :=
      .reply trivial (Channel.unbox_eq_ok_iff.2 ⟨box, rfl, hbox⟩)
    rcases h.carried.possible hτ _ hheard with ⟨q, hq⟩ | hq
    · obtain ⟨q', line'', key', m', hq', hown, hcases⟩ :=
        h.exists_origin hτ hq (List.mem_pair.2 (.inl rfl)) hd
      obtain ⟨rfl, rfl, rfl⟩ := hhello.unique hfresh hq' rfl hown
      rcases hcases with ⟨-, hm⟩ | ⟨rfl, -⟩ | rfl
      · cases hm
      · exact .inl rfl
      · exact .inr rfl
    · exact absurd (hq s.key.block (List.mem_pair.2 (.inr rfl))) (h.not_knows hfresh hτ hp hne)

/-- **A login that the server believes was meant for the server or for the intruder.** The intruder
does not know the secrets, and what the server has read last was sent by the client. -/
theorem respond_agreement (h : c.IsRun τ) (hfresh : τ.Fresh)
    (hne : c.client.publicKey ≠ c.intruder.publicKey) {r : ρ} {secured : Secured}
    (hr : (c.responds r).Runs (τ.of (.inr r)) (.ok secured))
    (hs : (c.admissions r).store.find secured.identity = .ok c.client.publicKey) :
    ¬c.Knows τ τ secured.secrets.key.block ∧
    (∃ es confirm cb i, τ.of (.inr r) =
        es ++ [.received (some (c.admissions r).limit) (.ok confirm)] ∧
      c.Posts τ (.inl i) confirm (.confirmation secured.secrets cb)) ∧
    ∀ i confirm cb, c.Posts τ (.inl i) confirm (.confirmation secured.secrets cb) →
      (c.attempts i).opposite = some c.server.publicKey ∨
        (c.attempts i).opposite = some c.intruder.publicKey := by
  rcases respond_course hr with ⟨-, e, he⟩ |
    ⟨hello, identity, ca, key, cb, secrets, answers, line, o, rest, hof, hi, hh, hf, -, -, hok⟩
  · cases he
  obtain ⟨rfl, rfl, confirm, rfl, hc⟩ := hok secured rfl
  obtain rfl := Except.ok.inj (hf.symm.trans hs)
  have hp : c.Posts τ (.inr r) line (.box c.client.publicKey (.accept ca cb secrets)) :=
    ⟨_, _, _, hof, .answer hi hh hf⟩
  refine ⟨h.not_knows hfresh (List.append_nil τ).symm hp hne, ?_,
    fun i confirm cb hconfirm => h.opposite_of_confirmation hfresh hne hp hconfirm⟩
  have hof' : τ.of (.inr r) = (.received (c.admissions r).first (.ok hello) ::
      .filled 32 (some cb.block) :: .filled 32 (some secrets.key.block) ::
        .filled 16 (some secrets.iv.block) :: (draws answers ++ [.sent line (.ok ())])) ++
      [.received (some (c.admissions r).limit) (.ok confirm)] := by
    rw [hof]
    simp
  obtain ⟨before, after, hτ, hbefore, -⟩ := Trace.exists_of_of_eq hof'
  have hheard : c.Hears (.inr r) (before.of (.inr r)) confirm (.confirmation secrets cb) := by
    rw [hbefore]
    exact .confirm hc
  rcases h.carried.possible hτ _ hheard with ⟨q, hq⟩ | hq
  · have hq' := hτ ▸ hq.append (_ :: after)
    obtain ⟨_, _, _, -, hsays⟩ := hq
    cases hsays with
    | @confirm i => exact ⟨_, confirm, cb, i, hof', hq'⟩
  · exact absurd (hq secrets.key.block (List.mem_singleton.2 rfl)) (h.not_knows hfresh hτ hp hne)

end Cast

/-! ## A greeting that is passed on -/

/-- The boxes and the ciphertext of a login for the intruder that is passed on to the server. -/
structure Relay [CipherSuite] (client server intruder : PrivateKey) where
  ca : Challenge
  cb : Challenge
  secrets : Secrets
  oneTime : PrivateKey
  oneTime' : PrivateKey
  nonce : Block 12
  hello : Bytes
  greeting : Bytes
  reply : Bytes
  confirm : Bytes
  fresh : [ca.block, oneTime.block, cb.block, secrets.key.block, oneTime'.block].Nodup
  sealed_hello : SealedBox.sealWith intruder.publicKey
    (Utf8.encode (Message.authenticate "alice" ca).encode) oneTime nonce = .ok hello
  open_greeting : SealedBox.openWith server greeting =
    .ok (Utf8.encode (Message.authenticate "alice" ca).encode)
  sealed_reply : SealedBox.sealWith client.publicKey
    (Utf8.encode (Message.accept ca cb secrets).encode) oneTime' nonce = .ok reply
  open_reply : SealedBox.openWith client reply =
    .ok (Utf8.encode (Message.accept ca cb secrets).encode)
  encrypt_confirm : SessionCrypt.encrypt secrets .initiator 0
    (Utf8.encode (Message.confirm cb).encode) = .ok confirm
  decrypt_confirm : SessionCrypt.decrypt secrets .initiator 0 confirm =
    .ok (Utf8.encode (Message.confirm cb).encode)

namespace Relay

variable [CipherSuite] {client server intruder : PrivateKey} (x : Relay client server intruder)

/-- A login of the client for the intruder, and a server that knows the client. -/
def parties (client server intruder : PrivateKey) : Cast Unit Unit where
  client := client
  server := server
  intruder := intruder
  attempts _ := ⟨some intruder.publicKey, "alice", .ofSeconds 5⟩
  admissions _ := ⟨none, KeyRing.toStore ⟨[("alice", client.publicKey)]⟩, none, .ofSeconds 5⟩

/-- What the client does before it waits. -/
def clientFirst : List Event :=
  .filled 32 (some x.ca.block) :: draws [⟨32, some x.oneTime.block⟩, ⟨12, some x.nonce⟩] ++
    [.sent (Base64.encodeLine x.hello) (.ok ())]

/-- What the client does when it has a reply. -/
def clientThen : List Event :=
  [.received (some (.ofSeconds 5)) (.ok (Base64.encodeLine x.reply)),
    .sent (Base64.encodeLine x.confirm) (.ok ())]

/-- What the server does before it waits for the confirmation. -/
def serverFirst : List Event :=
  .received none (.ok (Base64.encodeLine x.greeting)) :: .filled 32 (some x.cb.block) ::
    .filled 32 (some x.secrets.key.block) :: .filled 16 (some x.secrets.iv.block) ::
      draws [⟨32, some x.oneTime'.block⟩, ⟨12, some x.nonce⟩] ++
        [.sent (Base64.encodeLine x.reply) (.ok ())]

/-- What the server does then. -/
def serverThen : List Event :=
  [.received (some (.ofSeconds 5)) (.ok (Base64.encodeLine x.confirm))]

/-- The greeting goes to the server in another box, and all other lines as they are. -/
def trace : Trace (Unit ⊕ Unit) :=
  Trace.turn (.inl ()) x.clientFirst ++ Trace.turn (.inr ()) x.serverFirst ++
    Trace.turn (.inl ()) x.clientThen ++ Trace.turn (.inr ()) x.serverThen

theorem of_client : x.trace.of (.inl ()) = x.clientFirst ++ x.clientThen := by
  simp [trace, Trace.of_append]

theorem of_server : x.trace.of (.inr ()) = x.serverFirst ++ x.serverThen := by
  simp [trace, Trace.of_append]

theorem echoes : Echoes client (Base64.encodeLine x.reply) x.ca x.cb x.secrets :=
  ⟨x.reply, rfl, x.open_reply⟩

theorem confirms : Confirms x.secrets (Base64.encodeLine x.confirm) x.cb := by
  refine ⟨x.confirm, _, rfl, x.decrypt_confirm, ?_⟩
  have h := Message.parseConfirm_encode_confirm x.cb
  rwa [Message.parseConfirm_eq_ok_iff, Message.encode_confirm] at h

omit [CipherSuite] in
theorem isValid_alice : Principal.IsValid "alice" := by decide

/-- The client logs in. -/
theorem runs_client : ((parties client server intruder).initiates ()).Runs (x.trace.of (.inl ()))
    (.ok ⟨⟨x.secrets, .initiator, 1, 0⟩, [.base64], "alice"⟩) := by
  have hv : (Message.authenticate "alice" x.ca).IsValid := isValid_alice
  have hseal := SealedBox.runs_sealTo (Message.size_encode_le hv) x.sealed_hello
  rw [x.of_client]
  exact runs_initiate isValid_alice rfl hseal x.echoes ⟨x.confirm, rfl, x.encrypt_confirm⟩

/-- The server believes that it talks to the client. -/
theorem runs_server : ((parties client server intruder).responds ()).Runs (x.trace.of (.inr ()))
    (.ok ⟨⟨x.secrets, .responder, 0, 1⟩, [.base64], "alice"⟩) := by
  have hv : (Message.accept x.ca x.cb x.secrets).IsValid := trivial
  have hseal := SealedBox.runs_sealTo (Message.size_encode_le hv) x.sealed_reply
  have h : (respond ⟨server, none⟩ [.base64] (KeyRing.toStore ⟨[("alice", client.publicKey)]⟩) none
      (.ofSeconds 5)).Runs _ _ :=
    runs_respond isValid_alice ⟨x.greeting, rfl, x.open_greeting⟩ rfl hseal x.confirms
  rw [x.of_server]
  exact h

theorem fresh_trace : x.trace.Fresh := by
  simpa [Trace.Fresh, trace, Trace.turn, clientFirst, clientThen, serverFirst, serverThen, draws]
    using x.fresh

/-- The greeting is the intruder's, which knows the challenge in it. -/
theorem knows_challenge {before : Trace (Unit ⊕ Unit)}
    (hb : before.of (.inl ()) = x.clientFirst) :
    (parties client server intruder).Knows x.trace before x.ca.block := by
  intro _
  refine ⟨.inl (), _, _, ⟨_, .ok (), [], hb, .hello rfl⟩, List.mem_singleton.2 rfl⟩

theorem carried_greeting {before : Trace (Unit ⊕ Unit)}
    (hb : before.of (.inl ()) = x.clientFirst) (hs : before.of (.inr ()) = []) :
    (parties client server intruder).Carried x.trace before (.inr ())
      (.received none (.ok (Base64.encodeLine x.greeting))) := by
  intro letter hl
  rw [hs] at hl
  cases hl with
  | @hello _ _ m hm hu =>
    have hu' : Channel.unbox server (.ok (Base64.encodeLine x.greeting)) =
        .ok (Message.authenticate "alice" x.ca).encode :=
      Channel.unbox_eq_ok_iff.2 ⟨_, rfl, x.open_greeting⟩
    have hv : (Message.authenticate "alice" x.ca).IsValid := isValid_alice
    obtain rfl := Message.encode_inj hm hv (Except.ok.inj (hu.symm.trans hu'))
    refine .inr fun b hb' => ?_
    obtain rfl := List.mem_singleton.1 hb'
    exact x.knows_challenge hb

theorem carried_reply {before : Trace (Unit ⊕ Unit)}
    (hb : before.of (.inr ()) = x.serverFirst) :
    (parties client server intruder).Carried x.trace before (.inl ())
      (.received (some (.ofSeconds 5)) (.ok (Base64.encodeLine x.reply))) := by
  intro letter hl
  cases hl with
  | @reply _ _ _ m hm hu =>
    have hu' : Channel.unbox client (.ok (Base64.encodeLine x.reply)) =
        .ok (Message.accept x.ca x.cb x.secrets).encode :=
      Channel.unbox_eq_ok_iff.2 ⟨_, rfl, x.open_reply⟩
    have hv : (Message.accept x.ca x.cb x.secrets).IsValid := trivial
    obtain rfl := Message.encode_inj hm hv (Except.ok.inj (hu.symm.trans hu'))
    refine .inl ⟨.inr (), _, .ok (), [], hb, ?_⟩
    exact .answer isValid_alice ⟨x.greeting, rfl, x.open_greeting⟩ rfl

theorem posts_confirm {before : Trace (Unit ⊕ Unit)}
    (hb : before.of (.inl ()) = x.clientFirst ++ x.clientThen) :
    (parties client server intruder).Posts before (.inl ()) (Base64.encodeLine x.confirm)
      (.confirmation x.secrets x.cb) := by
  have hs : (parties client server intruder).Says (.inl ()) (.filled 32 (some x.ca.block) ::
      draws [⟨32, some x.oneTime.block⟩, ⟨12, some x.nonce⟩] ++
        [.sent (Base64.encodeLine x.hello) (.ok ()),
          .received (some (.ofSeconds 5)) (.ok (Base64.encodeLine x.reply))])
      (.confirmation x.secrets x.cb) := .confirm x.echoes
  exact ⟨_, .ok (), [], hb, hs⟩

theorem carried_confirm {before : Trace (Unit ⊕ Unit)}
    (hb : before.of (.inl ()) = x.clientFirst ++ x.clientThen)
    (hs : before.of (.inr ()) = x.serverFirst) :
    (parties client server intruder).Carried x.trace before (.inr ())
      (.received (some (.ofSeconds 5)) (.ok (Base64.encodeLine x.confirm))) := by
  intro letter hl
  generalize before.of (.inr ()) = es at hs hl
  cases hl with
  | hello => cases hs
  | @confirm _ _ _ _ secrets _ _ cb hc =>
    obtain ⟨-, -, hk, hv⟩ : _ ∧ _ ∧ secrets.key.block = x.secrets.key.block ∧
        secrets.iv.block = x.secrets.iv.block ∧ _ := by
      simpa [serverFirst] using hs
    obtain rfl : secrets = x.secrets := Secrets.eq_of_blocks hk hv.1
    obtain rfl := hc.unique x.confirms
    exact .inl ⟨.inl (), x.posts_confirm hb⟩

theorem isRun : (parties client server intruder).IsRun x.trace where
  initiates _ := x.runs_client.begins
  responds _ := x.runs_server.begins
  carried := by
    let R := (parties client server intruder).Carried x.trace
    have h : Trace.Along R ([] ++ Trace.turn (.inl ()) x.clientFirst) :=
      Trace.Along.nil.turn trivial (by simp [R, draws, Cast.Carried])
    have h : Trace.Along R (_ ++ Trace.turn (.inr ()) x.serverFirst) :=
      h.turn (x.carried_greeting (by simp) (by simp)) (by simp [R, draws, Cast.Carried])
    have h : Trace.Along R (_ ++ Trace.turn (.inl ()) x.clientThen) :=
      h.turn (x.carried_reply (by simp)) (by simp [R, Cast.Carried])
    have h : Trace.Along R (_ ++ Trace.turn (.inr ()) x.serverThen) :=
      h.turn (x.carried_confirm (by simp) (by simp)) (by simp)
    exact h

omit x in
/-- There is such a login if the keys that are used agree. The one-time key of the greeting may be
the intruder's own key. -/
theorem nonempty_of_agrees (hbox : CipherSuite.box.Sound) (hsession : CipherSuite.session.Sound)
    (ca cb : Challenge) (secrets : Secrets) (oneTime oneTime' : PrivateKey)
    (hfresh : [ca.block, oneTime.block, cb.block, secrets.key.block, oneTime'.block].Nodup)
    (hserver : server.shared intruder.publicKey = intruder.shared server.publicKey)
    (hclient : client.shared oneTime'.publicKey = oneTime'.shared client.publicKey) :
    Nonempty (Relay client server intruder) := by
  have hauth : (Message.authenticate "alice" ca).IsValid := isValid_alice
  have haccept : (Message.accept ca cb secrets).IsValid := trivial
  have hconfirm : (Message.confirm cb).IsValid := trivial
  have hfits : ChaChaPoly.fits (Utf8.encode (Message.confirm cb).encode).length :=
    ChaChaPoly.fits_of_le (Nat.le_trans (Message.size_encode_le hconfirm) (by decide))
  obtain ⟨hello, hhello, -⟩ := SealedBox.exists_sealWith hbox intruder.publicKey oneTime (.zero 12)
    (Message.size_encode_le hauth)
  obtain ⟨greeting, -, hgreeting, -⟩ := SealedBox.openWith_sealWith_of_agrees hbox hserver (.zero 12)
    (Message.size_encode_le hauth)
  obtain ⟨reply, hreply, hreply', -⟩ := SealedBox.openWith_sealWith_of_agrees hbox hclient (.zero 12)
    (Message.size_encode_le haccept)
  obtain ⟨confirm, henc, hdec, -⟩ := SessionCrypt.exists_encrypt_of_sound (k := 0) hsession secrets
    .initiator (by decide) hfits
  exact ⟨⟨ca, cb, secrets, oneTime, oneTime', .zero 12, hello, greeting, reply, confirm, hfresh,
    hhello, hgreeting, hreply, hreply', henc, hdec⟩⟩

omit [CipherSuite] in
theorem exists_relay : ∃ (suite : CipherSuite) (client server intruder : PrivateKey),
    suite = .standard ∧ Nonempty (Relay client server intruder) ∧
      client.publicKey ≠ intruder.publicKey ∧ server.publicKey ≠ intruder.publicKey := by
  let suite := CipherSuite.standard
  let client : PrivateKey := ⟨.ofPrefix 32 [8]⟩
  let server : PrivateKey := ⟨.ofPrefix 32 [16]⟩
  let intruder : PrivateKey := ⟨.ofPrefix 32 [24]⟩
  let oneTime' : PrivateKey := ⟨.ofPrefix 32 [40]⟩
  have hserver : server.shared intruder.publicKey = intruder.shared server.publicKey :=
    X25519.shared_publicKey_comm (k := 16) (l := 24) (by decide) (by decide) (by decide +kernel)
  have hclient : client.shared oneTime'.publicKey = oneTime'.shared client.publicKey :=
    X25519.shared_publicKey_comm (k := 8) (l := 40) (by decide) (by decide) (by decide +kernel)
  refine ⟨suite, client, server, intruder, rfl, ?_, by decide +kernel, by decide +kernel⟩
  exact nonempty_of_agrees ChaChaPoly.sound_short ChaChaPoly.sound_long ⟨.ofPrefix 32 [1]⟩
    ⟨.ofPrefix 32 [2]⟩ ⟨⟨.ofPrefix 32 [3]⟩, ⟨.zero 16⟩⟩ ⟨.ofPrefix 32 [32]⟩ oneTime' (by decide)
    hserver hclient

omit [CipherSuite] in
/-- The server believes a login that was meant for the intruder. -/
theorem respond_agreement_of_relay : ∃ (suite : CipherSuite) (c : Cast Unit Unit)
    (τ : Trace (Unit ⊕ Unit)) (secured : Secured) (confirm : Bytes) (cb : Challenge),
    suite = .standard ∧ c.IsRun τ ∧ τ.Fresh ∧ c.client.publicKey ≠ c.intruder.publicKey ∧
    (c.responds ()).Runs (τ.of (.inr ())) (.ok secured) ∧
    (c.admissions ()).store.find secured.identity = .ok c.client.publicKey ∧
    ¬c.Knows τ τ secured.secrets.key.block ∧
    c.Posts τ (.inl ()) confirm (.confirmation secured.secrets cb) ∧
    ((c.attempts ()).opposite = some c.server.publicKey ∨
      (c.attempts ()).opposite = some c.intruder.publicKey) := by
  obtain ⟨suite, client, server, intruder, hsuite, ⟨x⟩, hne, -⟩ := exists_relay
  obtain ⟨hsecret, -, hopposite⟩ :=
    Cast.respond_agreement x.isRun x.fresh_trace hne x.runs_server rfl
  have hconfirm := x.posts_confirm x.of_client
  exact ⟨suite, _, _, _, _, _, hsuite, x.isRun, x.fresh_trace, hne, x.runs_server, rfl, hsecret,
    hconfirm, hopposite () _ _ hconfirm⟩

omit [CipherSuite] in
/-- **A login that the server believes need not have been meant for the server.** The confirmation
was sent in a login for the intruder. -/
theorem respond_agreement_relayed : ∃ (suite : CipherSuite) (c : Cast Unit Unit)
    (τ : Trace (Unit ⊕ Unit)) (secured : Secured) (confirm : Bytes) (cb : Challenge),
    suite = .standard ∧ c.IsRun τ ∧ τ.Fresh ∧ c.client.publicKey ≠ c.intruder.publicKey ∧
    (c.responds ()).Runs (τ.of (.inr ())) (.ok secured) ∧
    (c.admissions ()).store.find secured.identity = .ok c.client.publicKey ∧
    .received (some (.ofSeconds 5)) (.ok confirm) ∈ τ.of (.inr ()) ∧
    c.Posts τ (.inl ()) confirm (.confirmation secured.secrets cb) ∧
    (c.attempts ()).opposite ≠ some c.server.publicKey := by
  obtain ⟨suite, client, server, intruder, hsuite, ⟨x⟩, hne, hne'⟩ := exists_relay
  refine ⟨suite, _, _, _, _, _, hsuite, x.isRun, x.fresh_trace, hne, x.runs_server, rfl, ?_,
    x.posts_confirm x.of_client, fun h => hne' (Option.some.inj h).symm⟩
  rw [x.of_server]
  simp [serverThen]

end Relay

end Handshake

end SealedChat
