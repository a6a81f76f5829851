import SealedChat.Proofs.Handshake.Honest
import SealedChat.Proofs.Line
import SealedChat.Proofs.Session.Talk

/-!
# Honest sessions, one after the other

Two sessions on one line log in, talk and log out, any number of times. `life` is what one end does of
it, and what it notes down. If the client knows the server's key and the server's store has the
client's, then every course of such a line leads to the notes that both should have
(`leads_of_honest`): both ends log in with the same identity and the same secrets, each payload that
one end sends is received by the other, unchanged and in order, and after the logout both are as they
were before the login, on the same line.
-/

namespace SealedChat.Session

/-! ## Cycles -/

/-- A login, what both ends do in the session, and how long each may wait. -/
structure Cycle where
  identity : String
  moves : List Move
  /-- How long the server waits for a login to begin. -/
  first : Option Duration
  /-- How long each end waits in a login after that. -/
  patience : Role → Duration
  /-- How long each end waits for a payload. -/
  wait : Role → Option Duration

/-- What an end notes down about a cycle. -/
structure Record where
  login : Outcome String
  secrets : Option Secrets
  talk : Talk
  logout : Outcome String
  /-- The session after the logout. -/
  session : Session

/-- The secrets that a session is encrypted under. -/
def secrets? (s : Session) : Option Secrets :=
  match s.stage with
  | .authenticated cipher _ _ => some cipher.secrets
  | _ => none

/-- The record of a cycle that has gone well, from a session and back to it. -/
def Record.ideal (r : Role) (s : Session) (c : Cycle) (k : Secrets) : Record :=
  ⟨.ok c.identity, some k, .ideal r (fun _ => []) c.moves, .ok c.identity, s⟩

/-- The server knows who logs in by the client's key, and the moves of the session can be made: each
payload is sent before it is received, fits, and has a number. -/
structure Cycle.Honest (store : KeyStore) (key : PublicKey) (limit : Role → Nat) (c : Cycle) :
    Prop where
  isValid : Principal.IsValid c.identity
  find : store.find c.identity = .ok key
  settles : Settles (fun _ => []) c.moves
  fits : ∀ m ∈ c.moves, m.Fits limit
  length_lt : c.moves.length < SessionCrypt.directionBit

variable [CipherSuite]

/-- The initiator logs in, and the responder lets it. -/
def loginAs (r : Role) (store : KeyStore) (c : Cycle) (s : Session) :
    Dialogue (Outcome String × Session) :=
  match r with
  | .initiator => s.initiate c.identity (c.patience .initiator)
  | .responder => s.respond store c.first (c.patience .responder)

/-- One cycle of one end. -/
def cycle (r : Role) (store : KeyStore) (c : Cycle) (s : Session) : Dialogue Record := do
  let (login, s) ← s.loginAs r store c
  let (talk, t) ← s.talk r (c.wait r) c.moves
  let (logout, t) := t.logout
  return ⟨login, s.secrets?, talk, logout, t⟩

/-- All cycles of one end. -/
def life (r : Role) (store : KeyStore) : List Cycle → Session → Dialogue (List Record)
  | [], _ => return []
  | c :: cycles, s => do
    let record ← s.cycle r store c
    return record :: (← life r store cycles record.session)

/-! ## Both ends -/

/-- The client's session before a login and the server's. -/
def atEnd (client server : PrivateKey) (pinned : Option PublicKey) : Role → Session
  | .initiator => .new [.base64] client (some server.publicKey)
  | .responder => .new [.base64] server pinned

section

variable {client server : PrivateKey} {pinned : Option PublicKey} {store : KeyStore}
  {limit : Role → Nat} {c : Cycle}

/-- The ends of a session that has just begun. -/
theorem ready_of_honest (hc : c.Honest store client.publicKey limit) (k : Secrets) :
    Ready limit ⟨k, .initiator, 1, 0⟩ ⟨k, .responder, 0, 1⟩ (fun _ => []) [] [] c.moves where
  role := rfl
  secrets := rfl
  toRight := ⟨rfl, rfl, fun _ _ _ h => nomatch h⟩
  toLeft := ⟨rfl, rfl, fun _ _ _ h => nomatch h⟩
  settles := hc.settles
  fits := hc.fits
  left := by
    have := hc.length_lt
    show 1 + c.moves.length ≤ _
    omega
  right := by
    have := hc.length_lt
    show 0 + c.moves.length ≤ _
    omega

/-- Both ends log in. -/
theorem converse_login (hs : CipherSuite.Lawful) (hl : ∀ r, 1024 ≤ limit r)
    (hc : c.Honest store client.publicKey limit) :
    Dialogue.Converse (limit .initiator) (limit .responder)
      (fun a b => ∃ k,
        a = (.ok c.identity, (atEnd client server pinned .initiator).enter
          ⟨⟨k, .initiator, 1, 0⟩, [.base64], c.identity⟩) ∧
        b = (.ok c.identity, (atEnd client server pinned .responder).enter
          ⟨⟨k, .responder, 0, 1⟩, [.base64], c.identity⟩))
      ((atEnd client server pinned .initiator).loginAs .initiator store c)
      ((atEnd client server pinned .responder).loginAs .responder store c) [] [] := by
  refine (Handshake.converse_initiate_respond hs (hl .initiator) (hl .responder) hc.isValid hc.find
    pinned (c.patience .initiator) (c.patience .responder) c.first).bind fun o o' ho => ?_
  obtain ⟨a, b, rfl, rfl, k, rfl, rfl⟩ := ho
  exact .done ⟨k, rfl, rfl⟩

/-- Both ends go through a cycle, and are then where they were. -/
theorem converse_cycle (hs : CipherSuite.Lawful) (hl : ∀ r, 1024 ≤ limit r)
    (hc : c.Honest store client.publicKey limit) :
    Dialogue.Converse (limit .initiator) (limit .responder)
      (fun a b => ∃ k, a = .ideal .initiator (atEnd client server pinned .initiator) c k ∧
        b = .ideal .responder (atEnd client server pinned .responder) c k)
      ((atEnd client server pinned .initiator).cycle .initiator store c)
      ((atEnd client server pinned .responder).cycle .responder store c) [] [] := by
  refine (converse_login hs hl hc).bind fun a b hab => ?_
  obtain ⟨k, rfl, rfl⟩ := hab
  have htalk : Succeed limit c.wait (atEnd client server pinned) c.identity c.moves
      ⟨k, .initiator, 1, 0⟩ ⟨k, .responder, 0, 1⟩ (fun _ => []) [] [] :=
    succeed hs (ready_of_honest hc k)
  refine Dialogue.Converse.bind htalk fun a b hab => ?_
  obtain ⟨⟨ha, _, hca⟩, hb, _, hcb⟩ := hab
  obtain ⟨a, _⟩ := a
  obtain ⟨b, _⟩ := b
  dsimp only at ha hca hb hcb
  subst ha hca hb hcb
  exact .done ⟨k, rfl, rfl⟩

/-- The notes that both ends should have of their cycles, each under secrets of its own. -/
def Notes (s : Role → Session) (cycles : List Cycle) (rs rs' : List Record) : Prop :=
  ∃ keys : List Secrets, keys.length = cycles.length ∧
    rs = List.zipWith (Record.ideal .initiator (s .initiator)) cycles keys ∧
    rs' = List.zipWith (Record.ideal .responder (s .responder)) cycles keys

theorem converse_life (hs : CipherSuite.Lawful) (hl : ∀ r, 1024 ≤ limit r) {cycles : List Cycle}
    (hc : ∀ c ∈ cycles, c.Honest store client.publicKey limit) :
    Dialogue.Converse (limit .initiator) (limit .responder)
      (Notes (atEnd client server pinned) cycles)
      ((atEnd client server pinned .initiator).life .initiator store cycles)
      ((atEnd client server pinned .responder).life .responder store cycles) [] [] := by
  induction cycles with
  | nil => exact .done ⟨[], rfl, rfl, rfl⟩
  | cons c cycles ih =>
    refine (converse_cycle hs hl (hc c List.mem_cons_self)).bind fun a b hab => ?_
    obtain ⟨k, rfl, rfl⟩ := hab
    refine (ih fun c hm => hc c (List.mem_cons_of_mem _ hm)).bind fun rs rs' hrs => ?_
    obtain ⟨keys, hlen, rfl, rfl⟩ := hrs
    exact .done ⟨k :: keys, by rw [List.length_cons, List.length_cons, hlen], rfl, rfl⟩

/-- **Honest sessions work, cycle after cycle.** On a line with any limits that admit all lines,
however its ends and bytes take turns and whatever random bytes are drawn, both ends come to the end
of all cycles, and with the notes that they should have. -/
theorem leads_of_honest (hbox : CipherSuite.box = ChaChaPoly.short)
    (hsession : CipherSuite.session = ChaChaPoly.long) (hagrees : CipherSuite.Agrees)
    (hl : ∀ r, 1024 ≤ limit r) {cycles : List Cycle}
    (hc : ∀ c ∈ cycles, c.Honest store client.publicKey limit) :
    (Line.start ((Session.new [.base64] client (some server.publicKey)).life .initiator store cycles)
      ((Session.new [.base64] server pinned).life .responder store cycles) (limit .initiator)
      (limit .responder)).Leads (Notes (atEnd client server pinned) cycles) :=
  (converse_life (hagrees.lawful hbox hsession) hl hc).leads

omit [CipherSuite] in
/-- Somebody logs in twice under different names, and talks in the first session only. -/
theorem leads_of_two_names :
    ∃ (suite : CipherSuite) (client server : PrivateKey) (store : KeyStore) (cycles : List Cycle),
      suite = .between client.block server.block ∧ cycles.map Cycle.identity = ["alice", "bob"] ∧
      (∀ c ∈ cycles, c.Honest store client.publicKey fun _ => 1024) ∧
      (Line.start
        ((Session.new [.base64] client (some server.publicKey)).life .initiator store cycles)
        ((Session.new [.base64] server none).life .responder store cycles) 1024 1024).Leads
        (Notes (atEnd client server none) cycles) := by
  let client : PrivateKey := ⟨.zero 32⟩
  let server : PrivateKey := ⟨.ofPrefix 32 [1]⟩
  let suite := CipherSuite.between client.block server.block
  let store := KeyRing.toStore ⟨[("alice", client.publicKey), ("bob", client.publicKey)]⟩
  let alice : Cycle := ⟨"alice", [.send .initiator [104, 105], .send .responder [104, 111],
    .receive .responder, .receive .initiator], none, fun _ => ⟨0⟩, fun _ => none⟩
  let bob : Cycle := ⟨"bob", [], none, fun _ => ⟨0⟩, fun _ => none⟩
  have halice : alice.Honest store client.publicKey fun _ => 1024 := by
    refine ⟨by decide, rfl, ⟨trivial, trivial, List.cons_ne_nil _ _,
      List.cons_ne_nil _ _, fun r => ?_⟩, ?_, by decide⟩
    · cases r <;> rfl
    · simp [alice, Move.Fits]
      decide
  have hbob : bob.Honest store client.publicKey fun _ => 1024 :=
    ⟨by decide, rfl, fun _ => rfl, fun _ h => (nomatch h), by decide⟩
  have hcycles : ∀ c ∈ [alice, bob], c.Honest store client.publicKey fun _ => 1024 := by
    simp [halice, hbob]
  have hagrees : CipherSuite.Agrees := CipherSuite.agrees_between client.block server.block
  exact ⟨suite, client, server, store, [alice, bob], rfl, rfl, hcycles,
    leads_of_honest rfl rfl hagrees (fun _ => Nat.le_refl 1024) hcycles⟩

end

end SealedChat.Session
