import Mathlib.Logic.Function.Basic
import Mathlib.Tactic.SplitIfs
import SealedChat.Proofs.Channel.Converse
import SealedChat.Session

/-!
# Talking in a session

Both ends of a session send and receive payloads, in any order in which each payload is sent before
it is received. `talk` is what one end does of it. The two ends can be carried on with each other, and
each receives what the other has sent, unchanged and in order (`succeed`).

The invariant (`Ready`) is that in each direction the lines on their way are the next messages that
the receiver expects, and that the sender has counted these and no more.
-/

namespace SealedChat

namespace Session

/-! ## Moves -/

/-- Something that one of the ends does. -/
inductive Move where
  | send (sender : Role) (payload : Bytes)
  | receive (receiver : Role)
deriving DecidableEq

/-- Payloads on their way to each end. -/
abbrev Waiting := Role → List Bytes

namespace Move

def actor : Move → Role
  | send r _ => r
  | receive r => r

/-- A payload can be received when it is on its way. -/
def Allowed (w : Waiting) : Move → Prop
  | send _ _ => True
  | receive r => w r ≠ []

/-- What is on its way after a move. -/
def after (w : Waiting) : Move → Waiting
  | send r payload => Function.update w r.other (w r.other ++ [payload])
  | receive r => Function.update w r (w r).tail

/-- The payload is short enough for the cipher, and its line for the other end. -/
def Fits (limit : Role → Nat) : Move → Prop
  | send r payload =>
    ChaChaPoly.fits payload.length ∧ 4 * ((payload.length + 18) / 3) ≤ limit r.other
  | receive _ => True

end Move

/-- Every payload is sent before it is received, and nothing is on its way at the end. -/
def Settles (w : Waiting) : List Move → Prop
  | [] => ∀ r, w r = []
  | m :: moves => m.Allowed w ∧ Settles (m.after w) moves

/-- The payloads that an end sends. -/
def payloads (r : Role) : List Move → List Bytes
  | [] => []
  | .send q payload :: moves => if q = r then payload :: payloads r moves else payloads r moves
  | .receive _ :: moves => payloads r moves

/-! ## One end -/

/-- The answers that an end has got to its moves. -/
structure Talk where
  sent : List (Outcome Unit)
  received : List (Outcome Bytes)

/-- What the answers should be: all that is on its way and all that the other end sends is received. -/
def Talk.ideal (r : Role) (w : Waiting) (moves : List Move) : Talk :=
  ⟨(payloads r moves).map fun _ => .ok (), (w r ++ payloads r.other moves).map .ok⟩

section

variable {r : Role} {w : Waiting} {payload : Bytes} {rest : List Bytes} (moves : List Move)

theorem ideal_send : Talk.ideal r w (.send r payload :: moves) =
    { Talk.ideal r (Move.after w (.send r payload)) moves with
      sent := .ok () :: (Talk.ideal r (Move.after w (.send r payload)) moves).sent } := by
  simp [Talk.ideal, payloads, Move.after, (Role.other_ne r).symm]

theorem ideal_other_send : Talk.ideal r.other w (.send r payload :: moves) =
    Talk.ideal r.other (Move.after w (.send r payload)) moves := by
  simp [Talk.ideal, payloads, Move.after, (Role.other_ne r).symm, Role.other_other]

theorem ideal_receive (h : w r = payload :: rest) : Talk.ideal r w (.receive r :: moves) =
    { Talk.ideal r (Move.after w (.receive r)) moves with
      received := .ok payload :: (Talk.ideal r (Move.after w (.receive r)) moves).received } := by
  simp [Talk.ideal, payloads, Move.after, h]

theorem ideal_other_receive : Talk.ideal r.other w (.receive r :: moves) =
    Talk.ideal r.other (Move.after w (.receive r)) moves := by
  simp [Talk.ideal, payloads, Move.after, Role.other_ne r]

end

variable [CipherSuite]

/-- What one end does of the moves. -/
def talk (r : Role) (wait : Option Duration) : List Move → Session → Dialogue (Talk × Session)
  | [], s => return (⟨[], []⟩, s)
  | m :: moves, s =>
    if m.actor = r then
      match m with
      | .send _ payload => do
        let (o, s) ← s.send payload
        let (t, s) ← talk r wait moves s
        return ({ t with sent := o :: t.sent }, s)
      | .receive _ => do
        let (o, s) ← s.receive wait
        let (t, s) ← talk r wait moves s
        return ({ t with received := o :: t.received }, s)
    else talk r wait moves s

section

variable {α β : Type} {l r : Nat} {P : α → β → Prop} {d' : Dialogue β} {q q' : List Bytes}
  {s : Session} {cipher : SessionCipher} {identity : String} {payload : Bytes}

/-- A payload is sent as the next message of the session. -/
theorem converse_send (hs : CipherSuite.Lawful) (hk : cipher.sent < SessionCrypt.directionBit)
    (hp : ChaChaPoly.fits payload.length) (hr : 4 * ((payload.length + 18) / 3) ≤ r)
    {f : Outcome Unit × Session → Dialogue α}
    (h : ∀ line, Enciphers cipher.secrets cipher.role cipher.sent payload line →
      Dialogue.Converse l r P (f (.ok (),
        s.enter ⟨{ cipher with sent := cipher.sent + 1 }, [.base64], identity⟩)) d' (q ++ [line])
        q') :
    Dialogue.Converse l r P ((s.enter ⟨cipher, [.base64], identity⟩).send payload >>= f) d' q q' := by
  obtain ⟨c, hc, hclean, hline⟩ := exists_enciphers hs r hk hp hr
  have hsend : Channel.send [.symmetric cipher, .base64] payload = .send (Base64.encodeLine c)
      fun o => .done (o, [.symmetric { cipher with sent := cipher.sent + 1 }, .base64]) := by
    rw [Channel.send, hc]
    rfl
  rw [send, enter]
  dsimp only
  rw [hsend]
  exact .sendLeft hclean (h _ hline)

/-- The next message of the other end is received. -/
theorem converse_receive {wait : Option Duration} {line : Bytes}
    {f : Outcome Bytes × Session → Dialogue α}
    (hl : Enciphers cipher.secrets cipher.role.other cipher.received payload line)
    (h : Dialogue.Converse l r P (f (.ok payload,
      s.enter ⟨{ cipher with received := cipher.received + 1 }, [.base64], identity⟩)) d' q q') :
    Dialogue.Converse l r P ((s.enter ⟨cipher, [.base64], identity⟩).receive wait >>= f) d' q
      (line :: q') := by
  obtain ⟨c, rfl, hdec⟩ := hl
  have hu : Channel.unword (.ok (Base64.encodeLine c)) = .ok c := Channel.unword_eq_ok_iff.2 rfl
  rw [receive, enter]
  dsimp only
  rw [Channel.receive, Channel.receive_base64]
  refine .receiveLeft ?_
  simp only [Dialogue.bind, hu, SessionCipher.decrypt_of_ok hdec]
  exact h

end

/-! ## Both ends -/

/-- The lines are the next messages of one end that the other expects, with these payloads. -/
structure Delivers (c c' : SessionCipher) (payloads lines : List Bytes) : Prop where
  sent : c.sent = c'.received + payloads.length
  length : lines.length = payloads.length
  enciphers : ∀ i payload line, payloads[i]? = some payload → lines[i]? = some line →
    Enciphers c.secrets c.role (c'.received + i) payload line

section

variable {c c' : SessionCipher} {ps lines : List Bytes} {payload line : Bytes}

theorem Delivers.send (h : Delivers c c' ps lines)
    (hl : Enciphers c.secrets c.role c.sent payload line) :
    Delivers { c with sent := c.sent + 1 } c' (ps ++ [payload]) (lines ++ [line]) where
  sent := by
    rw [List.length_append, ← Nat.add_assoc, ← h.sent]
    rfl
  length := by simp [h.length]
  enciphers i p l hp hl' := by
    rcases Nat.lt_or_ge i ps.length with hi | hi
    · rw [List.getElem?_append_left hi] at hp
      rw [List.getElem?_append_left (h.length ▸ hi)] at hl'
      exact h.enciphers i p l hp hl'
    · rw [List.getElem?_append_right hi, List.getElem?_singleton] at hp
      rw [List.getElem?_append_right (h.length ▸ hi), List.getElem?_singleton, h.length] at hl'
      split_ifs at hp hl' with h0
      cases hp
      cases hl'
      rw [show c'.received + i = c.sent by rw [h.sent]; omega]
      exact hl

theorem Delivers.receive (h : Delivers c c' (payload :: ps) lines) :
    ∃ line rest, lines = line :: rest ∧ Enciphers c.secrets c.role c'.received payload line ∧
      Delivers c { c' with received := c'.received + 1 } ps rest := by
  cases lines with
  | nil => cases h.length
  | cons line rest =>
    refine ⟨line, rest, rfl, h.enciphers 0 payload line rfl rfl, ?_, ?_, fun i p l hp hl => ?_⟩
    · rw [h.sent, List.length_cons]
      show _ = c'.received + 1 + ps.length
      omega
    · exact Nat.succ.inj h.length
    · show Enciphers _ _ (c'.received + 1 + i) p l
      rw [Nat.add_assoc, Nat.add_comm 1]
      exact h.enciphers (i + 1) p l hp hl

end

/-- What holds of both ends before the moves: what is on its way, that the moves can be made, and that
neither runs out of numbers. -/
structure Ready (limit : Role → Nat) (c c' : SessionCipher) (w : Waiting) (q q' : List Bytes)
    (moves : List Move) : Prop where
  role : c'.role = c.role.other
  secrets : c'.secrets = c.secrets
  toRight : Delivers c c' (w c'.role) q
  toLeft : Delivers c' c (w c.role) q'
  settles : Settles w moves
  fits : ∀ m ∈ moves, m.Fits limit
  left : c.sent + moves.length ≤ SessionCrypt.directionBit
  right : c'.sent + moves.length ≤ SessionCrypt.directionBit

/-- An end has got the answers that it should have, and its session is as it was. -/
def Talked (s : Session) (identity : String) (r : Role) (w : Waiting) (moves : List Move)
    (a : Talk × Session) : Prop :=
  a.1 = Talk.ideal r w moves ∧ ∃ c, a.2 = s.enter ⟨c, [.base64], identity⟩

section

variable {limit : Role → Nat} {c c' : SessionCipher} {w : Waiting} {q q' : List Bytes} {m : Move}
  {moves : List Move} {payload line : Bytes}

theorem Ready.swap (h : Ready limit c c' w q q' moves) : Ready limit c' c w q' q moves where
  role := by rw [h.role, Role.other_other]
  secrets := h.secrets.symm
  toRight := h.toLeft
  toLeft := h.toRight
  settles := h.settles
  fits := h.fits
  left := h.right
  right := h.left

/-- The left end sends the next payload, as a line that carries it. -/
theorem Ready.send (h : Ready limit c c' w q q' (.send c.role payload :: moves))
    (hl : Enciphers c.secrets c.role c.sent payload line) :
    Ready limit { c with sent := c.sent + 1 } c' (Move.after w (.send c.role payload)) (q ++ [line])
      q' moves where
  role := h.role
  secrets := h.secrets
  toRight := by
    rw [show Move.after w (.send c.role payload) c'.role = w c'.role ++ [payload] by
      rw [Move.after, h.role, Function.update_self]]
    exact h.toRight.send hl
  toLeft := by
    rw [show Move.after w (.send c.role payload) c.role = w c.role by
      rw [Move.after, Function.update_of_ne (Role.other_ne _).symm]]
    exact ⟨h.toLeft.sent, h.toLeft.length, h.toLeft.enciphers⟩
  settles := h.settles.2
  fits m hm := h.fits m (List.mem_cons_of_mem _ hm)
  left := by
    have := h.left
    rw [List.length_cons] at this
    show c.sent + 1 + moves.length ≤ _
    omega
  right := by
    have := h.right
    rw [List.length_cons] at this
    omega

/-- The left end receives the next payload, from the first line on its way. -/
theorem Ready.receive (h : Ready limit c c' w q q' (.receive c.role :: moves)) :
    ∃ payload rest line lines, w c.role = payload :: rest ∧ q' = line :: lines ∧
      Enciphers c.secrets c.role.other c.received payload line ∧
      Ready limit { c with received := c.received + 1 } c' (Move.after w (.receive c.role)) q lines
        moves := by
  obtain ⟨payload, rest, hw⟩ := List.exists_cons_of_ne_nil h.settles.1
  have hto := h.toLeft
  rw [hw] at hto
  obtain ⟨line, lines, rfl, hl, hd⟩ := hto.receive
  rw [h.secrets, h.role] at hl
  refine ⟨payload, rest, line, lines, hw, rfl, hl, h.role, h.secrets, ?_, ?_, h.settles.2,
    fun m hm => h.fits m (List.mem_cons_of_mem _ hm), ?_, ?_⟩
  · rw [show Move.after w (.receive c.role) c'.role = w c'.role by
      rw [Move.after, h.role, Function.update_of_ne (Role.other_ne _)]]
    exact ⟨h.toRight.sent, h.toRight.length, h.toRight.enciphers⟩
  · rw [show Move.after w (.receive c.role) c.role = rest by
      rw [Move.after, Function.update_self, hw, List.tail_cons]]
    exact hd
  · have := h.left
    rw [List.length_cons] at this
    show c.sent + moves.length ≤ _
    omega
  · have := h.right
    rw [List.length_cons] at this
    omega

end

section

variable (limit : Role → Nat) (wait : Role → Option Duration) (s : Role → Session)
  (identity : String)

/-- What one end does from its session on. -/
def turn (c : SessionCipher) (moves : List Move) : Dialogue (Talk × Session) :=
  talk c.role (wait c.role) moves ((s c.role).enter ⟨c, [.base64], identity⟩)

/-- From here, both ends can make their moves and get the right answers. -/
def Succeed (moves : List Move) (c c' : SessionCipher) (w : Waiting) (q q' : List Bytes) : Prop :=
  Dialogue.Converse (limit c.role) (limit c'.role)
    (fun a b => Talked (s c.role) identity c.role w moves a ∧
      Talked (s c'.role) identity c'.role w moves b)
    (turn wait s identity c moves) (turn wait s identity c' moves) q q'

variable {limit wait s identity} {c c' : SessionCipher} {w : Waiting} {q q' : List Bytes}
  {m : Move} {moves : List Move} {payload line : Bytes}

theorem Succeed.swap (h : Succeed limit wait s identity moves c c' w q q') :
    Succeed limit wait s identity moves c' c w q' q :=
  (Dialogue.Converse.swap h).mono fun _ _ hab => hab.symm

theorem succeed_nil (h : Ready limit c c' w q q' []) : Succeed limit wait s identity [] c c' w q q' := by
  have hq : q = [] := List.eq_nil_of_length_eq_zero (by rw [h.toRight.length, h.settles]; rfl)
  have hq' : q' = [] := List.eq_nil_of_length_eq_zero (by rw [h.toLeft.length, h.settles]; rfl)
  have hideal (r : Role) : Talk.ideal r w [] = ⟨[], []⟩ := by
    simp [Talk.ideal, payloads, h.settles r]
  subst hq hq'
  exact .done ⟨⟨(hideal _).symm, c, rfl⟩, (hideal _).symm, c', rfl⟩

/-- The left end sends. -/
theorem succeed_send (hs : CipherSuite.Lawful)
    (h : Ready limit c c' w q q' (.send c.role payload :: moves))
    (ih : ∀ ⦃c c' w q q'⦄, Ready limit c c' w q q' moves →
      Succeed limit wait s identity moves c c' w q q') :
    Succeed limit wait s identity (.send c.role payload :: moves) c c' w q q' := by
  have hleft : turn wait s identity c (.send c.role payload :: moves) = (do
      let p ← ((s c.role).enter ⟨c, [.base64], identity⟩).send payload
      let a ← talk c.role (wait c.role) moves p.2
      pure ({ a.1 with sent := p.1 :: a.1.sent }, a.2)) := by
    rw [turn, talk, Move.actor, if_pos rfl]
  have hright : turn wait s identity c' (.send c.role payload :: moves) =
      turn wait s identity c' moves := by
    rw [turn, talk, Move.actor, if_neg (by rw [h.role]; exact (Role.other_ne _).symm)]
    rfl
  have hk : c.sent < SessionCrypt.directionBit := by
    have := h.left
    rw [List.length_cons] at this
    omega
  obtain ⟨hp, hlim⟩ := h.fits _ List.mem_cons_self
  rw [← h.role] at hlim
  rw [Succeed, hleft, hright]
  refine converse_send hs hk hp hlim fun line hline => ?_
  refine (ih (h.send hline)).mapLeft fun a b hab => ?_
  obtain ⟨⟨ha, c₁, hc₁⟩, hb, c₂, hc₂⟩ := hab
  refine ⟨⟨?_, c₁, hc₁⟩, ?_, c₂, hc₂⟩
  · rw [ideal_send, ha]
  · rw [hb, h.role, ideal_other_send]

/-- The left end receives. -/
theorem succeed_receive (h : Ready limit c c' w q q' (.receive c.role :: moves))
    (ih : ∀ ⦃c c' w q q'⦄, Ready limit c c' w q q' moves →
      Succeed limit wait s identity moves c c' w q q') :
    Succeed limit wait s identity (.receive c.role :: moves) c c' w q q' := by
  have hleft : turn wait s identity c (.receive c.role :: moves) = (do
      let p ← ((s c.role).enter ⟨c, [.base64], identity⟩).receive (wait c.role)
      let a ← talk c.role (wait c.role) moves p.2
      pure ({ a.1 with received := p.1 :: a.1.received }, a.2)) := by
    rw [turn, talk, Move.actor, if_pos rfl]
  have hright : turn wait s identity c' (.receive c.role :: moves) =
      turn wait s identity c' moves := by
    rw [turn, talk, Move.actor, if_neg (by rw [h.role]; exact (Role.other_ne _).symm)]
    rfl
  obtain ⟨payload, rest, line, lines, hw, rfl, hline, hnext⟩ := h.receive
  rw [Succeed, hleft, hright]
  refine converse_receive hline ?_
  refine (ih hnext).mapLeft fun a b hab => ?_
  obtain ⟨⟨ha, c₁, hc₁⟩, hb, c₂, hc₂⟩ := hab
  refine ⟨⟨?_, c₁, hc₁⟩, ?_, c₂, hc₂⟩
  · rw [ideal_receive moves hw, ha]
  · rw [hb, h.role, ideal_other_receive]

/-- **Whatever the moves, both ends get the right answers**: what either sends, the other receives. -/
theorem succeed (hs : CipherSuite.Lawful) (h : Ready limit c c' w q q' moves) :
    Succeed limit wait s identity moves c c' w q q' := by
  induction moves generalizing c c' w q q' with
  | nil => exact succeed_nil h
  | cons m moves ih =>
    -- a move of the right end is one of the left end, seen from the other side
    have key {c c' : SessionCipher} {q q' : List Bytes} (h : Ready limit c c' w q q' (m :: moves))
        (hm : m.actor = c.role) : Succeed limit wait s identity (m :: moves) c c' w q q' := by
      cases m with
      | send r payload =>
        cases hm
        exact succeed_send hs h fun _ _ _ _ _ => ih
      | receive r =>
        cases hm
        exact succeed_receive h fun _ _ _ _ _ => ih
    by_cases hm : m.actor = c.role
    · exact key h hm
    · exact (key h.swap (by rw [h.role]; exact Role.eq_other_of_ne hm)).swap

end

end Session

end SealedChat
