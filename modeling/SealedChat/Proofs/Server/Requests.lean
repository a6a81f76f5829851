import SealedChat.Proofs.Dispatcher
import SealedChat.Proofs.History
import SealedChat.Proofs.Server.Turn
import SealedChat.Proofs.Session.Traffic
import SealedChat.Service.Server

/-!
# One reply for each line

A connection that serves somebody takes a line, asks the dispatcher, and replies, again and again,
until somebody asks for a logout. Meanwhile handlers are registered, by anybody and through whichever
clone of the dispatcher, and the other connections change the table of who is online. All of this is
a `History` of incidents (`Undergoes`); those of the connection are exactly its steps
(`step_iff_undergoes`), and whatever else happens to a server is one of the others
(`Server.Moves.undergoes`).

**The answer to a line** (`answer`) is that of the handler registered last for its command, or what is
said of its failure, or that there is none, at the moment at which the dispatcher is asked
(`moments`).

**The invariant** (`Stands`) goes by the phase of the connection: the replies so far are the answers
to the lines so far, but for a line under way, whose reply is the one that is due. None of the lines
asked for a logout, but for the last one when the connection parts.

Main result: `Connection.reply_per_line`.
-/

namespace SealedChat

open Dialogue Dispatcher

namespace Connection

/-! ## Incidents -/

/-- What happens while a connection serves. -/
inductive Incident where
  /-- A handler is registered. -/
  | registered (r : Registration SessionTable)
  /-- Others change what is shared, but for the handlers. -/
  | stirred
  | received (result : Outcome String)
  /-- The dispatcher is asked while these are online. -/
  | asked (table : SessionTable)
  | sent (reply : String) (result : Outcome Unit)

namespace Incident

/-- The connection does it. -/
def IsOwn : Incident → Prop
  | registered _ | stirred => False
  | received _ | asked _ | sent _ _ => True

def line? : Incident → Option String
  | received result => result.toOption
  | _ => none

def reply? : Incident → Option String
  | sent reply (.ok ()) => some reply
  | _ => none

def registration? : Incident → Option (Registration SessionTable)
  | registered r => some r
  | _ => none

@[simp] theorem line?_ok (line : String) : (received (.ok line)).line? = some line := rfl

@[simp] theorem line?_error (e : ChatError) : (received (.error e)).line? = none := rfl

@[simp] theorem line?_asked (table : SessionTable) : (asked table).line? = none := rfl

@[simp] theorem line?_sent (reply : String) (o : Outcome Unit) : (sent reply o).line? = none := rfl

@[simp] theorem reply?_received (o : Outcome String) : (received o).reply? = none := rfl

@[simp] theorem reply?_asked (table : SessionTable) : (asked table).reply? = none := rfl

@[simp] theorem reply?_ok (reply : String) (u : Unit) :
    (sent reply (.ok u)).reply? = some reply := rfl

@[simp] theorem reply?_error (reply : String) (e : ChatError) :
    (sent reply (.error e)).reply? = none := rfl

end Incident

/-- The lines that were taken. -/
def lines (xs : List Incident) : List String := xs.filterMap Incident.line?

/-- The replies that were sent. -/
def replies (xs : List Incident) : List String := xs.filterMap Incident.reply?

/-- All registrations so far. -/
def registrations (regs : List (Registration SessionTable)) (xs : List Incident) :
    List (Registration SessionTable) :=
  regs ++ xs.filterMap Incident.registration?

/-- What a reply depends on: the registrations so far, and who is online. -/
abbrev Moment := List (Registration SessionTable) × SessionTable

/-- The moments at which the dispatcher was asked. -/
def moments (regs : List (Registration SessionTable)) : List Incident → List Moment
  | [] => []
  | .registered r :: xs => moments (regs ++ [r]) xs
  | .asked table :: xs => (regs, table) :: moments regs xs
  | _ :: xs => moments regs xs

/-- The answer to a line. -/
def answer (identity line : String) (m : Moment) : String :=
  match latest? m.1 (commandOf line) with
  | none => unknownRequest
  | some handler =>
    match handler m.2 identity line with
    | .ok reply => reply
    | .error e => "Error: " ++ e.message

section

variable (regs : List (Registration SessionTable)) (xs : List Incident) (x : Incident)

theorem lines_snoc : lines (xs ++ [x]) = lines xs ++ x.line?.toList := by
  cases h : x.line? <;> simp [lines, h]

theorem replies_snoc : replies (xs ++ [x]) = replies xs ++ x.reply?.toList := by
  cases h : x.reply? <;> simp [replies, h]

theorem registrations_snoc :
    registrations regs (xs ++ [x]) = registrations regs xs ++ x.registration?.toList := by
  cases h : x.registration? <;> simp [registrations, h]

theorem moments_append (ys : List Incident) :
    moments regs (xs ++ ys) = moments regs xs ++ moments (registrations regs xs) ys := by
  induction xs generalizing regs with
  | nil => simp [moments, registrations]
  | cons x xs ih =>
    cases x with
    | registered r =>
      have hregs : registrations regs (.registered r :: xs) = registrations (regs ++ [r]) xs := by
        simp [registrations, Incident.registration?]
      rw [hregs]
      exact ih (regs ++ [r])
    | asked table => exact congrArg ((regs, table) :: ·) (ih regs)
    | _ => exact ih regs

theorem moments_asked (table : SessionTable) :
    moments regs (xs ++ [.asked table]) = moments regs xs ++ [(registrations regs xs, table)] := by
  rw [moments_append]
  rfl

variable {x}

/-- Only asking the dispatcher makes a moment. -/
theorem moments_snoc (h : ∀ table, x ≠ .asked table) :
    moments regs (xs ++ [x]) = moments regs xs := by
  rw [moments_append]
  cases x with
  | asked table => exact absurd rfl (h table)
  | _ => simp [moments]

end

/-- The reply of a dispatcher is the answer at the moment. -/
theorem replyTo_eq {hub : Hub} {regs : List (Registration SessionTable)}
    (h : hub.dispatcher = ofRegistrations regs) (identity line : String) :
    Request.replyTo hub identity line = answer identity line (regs, hub.table) := by
  rw [Request.replyTo, answer, Dispatcher.dispatch, h, handler?_ofRegistrations]
  cases latest? regs (commandOf line) <;> rfl

/-! ## Lines and replies -/

/-- The lines are requests, each with its moment, and the replies are the answers to them. -/
structure Answered (identity : String) (lines : List String) (ms : List Moment)
    (replies : List String) : Prop where
  length_eq : ms.length = lines.length
  requests : ∀ line ∈ lines, Request.isLogout line = false
  replies_eq : replies = List.zipWith (answer identity) lines ms

theorem Answered.nil (identity : String) : Answered identity [] [] [] :=
  ⟨rfl, by simp, rfl⟩

theorem Answered.snoc {identity line : String} {lines replies : List String} {ms : List Moment}
    (h : Answered identity lines ms replies) (hl : Request.isLogout line = false) (m : Moment) :
    Answered identity (lines ++ [line]) (ms ++ [m]) (replies ++ [answer identity line m]) := by
  refine ⟨by simp [h.length_eq], ?_, ?_⟩
  · intro l hm
    rcases List.mem_append.1 hm with hm | hm
    · exact h.requests l hm
    · rw [List.mem_singleton.1 hm]
      exact hl
  · rw [List.zipWith_append h.length_eq.symm, ← h.replies_eq]
    rfl

/-- How the phase of a connection goes with the lines and the replies so far. -/
inductive Stands (identity : String) (regs : List (Registration SessionTable))
    (xs : List Incident) : Phase → Prop where
  /-- Every line has its reply. -/
  | serving (h : Answered identity (lines xs) (moments regs xs) (replies xs)) :
      Stands identity regs xs (.serving identity)
  /-- The last line has none yet. -/
  | dispatching {earlier : List String} {line : String} (hlines : lines xs = earlier ++ [line])
      (hl : Request.isLogout line = false)
      (h : Answered identity earlier (moments regs xs) (replies xs)) :
      Stands identity regs xs (.dispatching identity line)
  /-- The answer to the last line is due. -/
  | replying {earlier : List String} {line : String} {ms : List Moment} {m : Moment}
      (hlines : lines xs = earlier ++ [line]) (hl : Request.isLogout line = false)
      (hms : moments regs xs = ms ++ [m]) (h : Answered identity earlier ms (replies xs)) :
      Stands identity regs xs (.replying identity (answer identity line m) false)
  /-- The last line asks for a logout. -/
  | parting {earlier : List String} {line : String} (hlines : lines xs = earlier ++ [line])
      (hl : Request.isLogout line = true)
      (h : Answered identity earlier (moments regs xs) (replies xs)) :
      Stands identity regs xs (.replying identity Request.loggedOut true)
  /-- The last line has asked for a logout, and this was said. -/
  | parted {earlier : List String} {line : String} {rs : List String}
      (hlines : lines xs = earlier ++ [line]) (hl : Request.isLogout line = true)
      (hrs : replies xs = rs ++ [Request.loggedOut])
      (h : Answered identity earlier (moments regs xs) rs) :
      Stands identity regs xs (.unbinding identity)
  /-- No line could be taken. -/
  | unheard {e : ChatError} (he : .received (.error e) ∈ xs)
      (h : Answered identity (lines xs) (moments regs xs) (replies xs)) :
      Stands identity regs xs (.releasing e)
  /-- The reply to the last line could not be sent. -/
  | unsent {e : ChatError} {reply : String} {earlier : List String} {line : String}
      {ms : List Moment} (he : .sent reply (.error e) ∈ xs) (hlines : lines xs = earlier ++ [line])
      (hms : ms <+: moments regs xs) (h : Answered identity earlier ms (replies xs)) :
      Stands identity regs xs (.releasing e)

variable {hub hub' : Hub} {c c' : Connection} {d d' : Hub × Connection} {x : Incident}
  {xs : List Incident} {identity : String} {regs : List (Registration SessionTable)}

/-! ## The invariant -/

/-- An incident that is none of the connection's changes nothing for it. -/
theorem Stands.foreign {phase : Phase} (h : Stands identity regs xs phase) (hx : ¬ x.IsOwn) :
    Stands identity regs (xs ++ [x]) phase := by
  have hline : x.line? = none := by cases x <;> first | rfl | exact absurd trivial hx
  have hreply : x.reply? = none := by cases x <;> first | rfl | exact absurd trivial hx
  have hlines : lines (xs ++ [x]) = lines xs := by simp [lines_snoc, hline]
  have hreplies : replies (xs ++ [x]) = replies xs := by simp [replies_snoc, hreply]
  have hms : moments regs (xs ++ [x]) = moments regs xs :=
    moments_snoc regs xs fun table he => hx (he ▸ trivial)
  cases h with
  | serving h => exact .serving (by rwa [hlines, hreplies, hms])
  | dispatching hl hn h => exact .dispatching (hlines.trans hl) hn (by rwa [hreplies, hms])
  | replying hl hn hm h => exact .replying (hlines.trans hl) hn (hms.trans hm) (by rwa [hreplies])
  | parting hl hn h => exact .parting (hlines.trans hl) hn (by rwa [hreplies, hms])
  | parted hl hn hr h => exact .parted (hlines.trans hl) hn (hreplies.trans hr) (by rwa [hms])
  | unheard he h =>
    exact .unheard (List.mem_append_left _ he) (by rwa [hlines, hreplies, hms])
  | unsent he hl hm h =>
    exact .unsent (List.mem_append_left _ he) (hlines.trans hl) (hms ▸ hm) (by rwa [hreplies])

theorem Stands.received {identity' : String} {result : Outcome String} {session : Session}
    (h : Stands identity regs xs c.phase) (hp : c.phase = .serving identity') :
    Stands identity regs (xs ++ [.received result])
      (requested { c with session } identity' result hub).2.phase := by
  rw [hp] at h
  obtain ⟨h⟩ := h
  have hreplies : replies (xs ++ [.received result]) = replies xs := by simp [replies_snoc]
  have hms : moments regs (xs ++ [.received result]) = moments regs xs :=
    moments_snoc regs xs (by simp)
  cases result with
  | error e =>
    have hlines : lines (xs ++ [.received (.error e)]) = lines xs := by simp [lines_snoc]
    exact .unheard (by simp) (by rwa [hlines, hreplies, hms])
  | ok line =>
    have hlines : lines (xs ++ [.received (.ok line)]) = lines xs ++ [line] := by
      simp [lines_snoc]
    simp only [requested]
    cases hl : Request.isLogout line with
    | true => exact .parting hlines hl (by rwa [hreplies, hms])
    | false => exact .dispatching hlines hl (by rwa [hreplies, hms])

theorem Stands.asked {identity' line : String} (h : Stands identity regs xs c.phase)
    (hp : c.phase = .dispatching identity' line)
    (hd : hub.dispatcher = ofRegistrations (registrations regs xs)) :
    Stands identity regs (xs ++ [.asked hub.table]) (c.dispatch identity' line hub).2.phase := by
  rw [hp] at h
  obtain _ | ⟨hlines, hl, h⟩ := h
  have hlines' : lines (xs ++ [.asked hub.table]) = lines xs := by simp [lines_snoc]
  have hreplies : replies (xs ++ [.asked hub.table]) = replies xs := by simp [replies_snoc]
  simp only [Connection.dispatch, replyTo_eq hd]
  exact .replying (hlines'.trans hlines) hl (moments_asked regs xs hub.table) (by rwa [hreplies])

theorem Stands.sent {identity' reply : String} {logout : Bool} {o : Outcome Unit}
    {session : Session} (h : Stands identity regs xs c.phase)
    (hp : c.phase = .replying identity' reply logout) :
    Stands identity regs (xs ++ [.sent reply o])
      (replied { c with session } identity' reply logout o hub).2.phase := by
  rw [hp] at h
  have hlines' : lines (xs ++ [.sent reply o]) = lines xs := by simp [lines_snoc]
  have hms' : moments regs (xs ++ [.sent reply o]) = moments regs xs := moments_snoc regs xs (by simp)
  cases o with
  | error e =>
    have he : .sent reply (.error e) ∈ xs ++ [.sent reply (.error e)] := by simp
    have hreplies : replies (xs ++ [.sent reply (.error e)]) = replies xs := by simp [replies_snoc]
    cases h with
    | @replying earlier line ms m hlines hl hms h =>
      have hprefix := List.prefix_append ms [m]
      rw [← hms, ← hms'] at hprefix
      exact .unsent he (hlines'.trans hlines) hprefix (by rwa [hreplies])
    | parting hlines hl h =>
      have hprefix := List.prefix_refl (moments regs xs)
      nth_rewrite 2 [← hms'] at hprefix
      exact .unsent he (hlines'.trans hlines) hprefix (by rwa [hreplies])
  | ok u =>
    have hreplies : replies (xs ++ [.sent reply (.ok u)]) = replies xs ++ [reply] := by
      simp [replies_snoc]
    cases h with
    | @replying earlier line ms m hlines hl hms h =>
      refine .serving ?_
      rw [hlines', hms', hreplies, hlines, hms]
      exact h.snoc hl m
    | parting hlines hl h => exact .parted (hlines'.trans hlines) hl hreplies (by rwa [hms'])

/-! ## What a connection undergoes -/

variable [CipherSuite]

/-- An incident, and what the hub and the connection are after it. -/
inductive Undergoes : Hub × Connection → Incident → Hub × Connection → Prop where
  | registered (hub : Hub) (c : Connection) (r : Registration SessionTable) :
      Undergoes (hub, c) (.registered r)
        ({ hub with dispatcher := hub.dispatcher.register r.1 r.2 }, c)
  | stirred {hub hub' : Hub} (c : Connection) (h : hub'.dispatcher = hub.dispatcher) :
      Undergoes (hub, c) .stirred (hub', c)
  | received {hub : Hub} {c : Connection} {identity : String} {es : List Event}
      {o : Outcome Bytes} {session : Session} (hp : c.phase = .serving identity)
      (h : (c.session.receive none).Runs es (o, session)) :
      Undergoes (hub, c) (.received (o.bind Channel.textOf))
        (requested { c with session } identity (o.bind Channel.textOf) hub)
  | asked {hub : Hub} {c : Connection} {identity line : String}
      (hp : c.phase = .dispatching identity line) :
      Undergoes (hub, c) (.asked hub.table) (c.dispatch identity line hub)
  | sent {hub : Hub} {c : Connection} {identity reply : String} {logout : Bool} {es : List Event}
      {o : Outcome Unit} {session : Session} (hp : c.phase = .replying identity reply logout)
      (h : (c.session.send (Utf8.encode reply)).Runs es (o, session)) :
      Undergoes (hub, c) (.sent reply o) (replied { c with session } identity reply logout o hub)

/-- The phases in which a connection serves. -/
def Phase.IsServing : Phase → Prop
  | .serving _ | .dispatching _ _ | .replying _ _ _ => True
  | _ => False

/-- **The incidents of a connection that serves are its steps.** -/
theorem step_iff_undergoes {store : KeyStore} {limit : Duration} (hp : c.phase.IsServing) :
    (∃ es change, (c.step store limit).Runs es change ∧ change hub = d) ↔
      ∃ x : Incident, x.IsOwn ∧ Undergoes (hub, c) x d := by
  constructor
  · intro hstep
    obtain ⟨es, change, h, rfl⟩ := hstep
    cases hphase : c.phase with
    | serving identity =>
      simp only [step, hphase] at h
      obtain ⟨⟨o, session⟩, h₁, rfl⟩ := runs_bind_done_iff.1 h
      exact ⟨.received _, trivial, .received hphase h₁⟩
    | dispatching identity line =>
      simp only [step, hphase] at h
      obtain ⟨-, rfl⟩ := runs_done_iff.1 h
      exact ⟨.asked _, trivial, .asked hphase⟩
    | replying identity reply logout =>
      simp only [step, hphase] at h
      obtain ⟨⟨o, session⟩, h₁, rfl⟩ := runs_bind_done_iff.1 h
      exact ⟨.sent _ _, trivial, .sent hphase h₁⟩
    | _ =>
      rw [hphase] at hp
      exact hp.elim
  · intro hown
    obtain ⟨x, hx, h⟩ := hown
    cases h with
    | registered => exact hx.elim
    | stirred => exact hx.elim
    | @received _ _ identity es o session hphase h =>
      refine ⟨es, requested { c with session } identity (o.bind Channel.textOf), ?_, rfl⟩
      simp only [step, hphase]
      exact runs_bind_done_iff.2 ⟨_, h, rfl⟩
    | @asked _ _ identity line hphase =>
      refine ⟨[], c.dispatch identity line, ?_, rfl⟩
      simp only [step, hphase]
      exact .done _
    | @sent _ _ identity reply logout es o session hphase h =>
      refine ⟨es, replied { c with session } identity reply logout o, ?_, rfl⟩
      simp only [step, hphase]
      exact runs_bind_done_iff.2 ⟨_, h, rfl⟩

/-- A connection that serves goes on, whatever is shared. -/
theorem exists_undergoes (hp : c.phase.IsServing) (hub : Hub) :
    ∃ (x : Incident) (d : Hub × Connection), x.IsOwn ∧ Undergoes (hub, c) x d := by
  cases hphase : c.phase with
  | serving identity =>
    obtain ⟨es, ⟨o, session⟩, h⟩ := exists_runs (c.session.receive none)
    exact ⟨.received _, _, trivial, .received hphase h⟩
  | dispatching identity line => exact ⟨.asked _, _, trivial, .asked hphase⟩
  | replying identity reply logout =>
    obtain ⟨es, ⟨o, session⟩, h⟩ := exists_runs (c.session.send (Utf8.encode reply))
    exact ⟨.sent _ _, _, trivial, .sent hphase h⟩
  | _ =>
    rw [hphase] at hp
    exact hp.elim

/-- Every incident keeps the handlers that were registered, and the invariant. -/
theorem Undergoes.keeps (h : Undergoes d x d')
    (hd : d.1.dispatcher = ofRegistrations (registrations regs xs))
    (hs : Stands identity regs xs d.2.phase) :
    d'.1.dispatcher = ofRegistrations (registrations regs (xs ++ [x])) ∧
      Stands identity regs (xs ++ [x]) d'.2.phase := by
  have hsame (hx : x.registration? = none) :
      registrations regs (xs ++ [x]) = registrations regs xs := by
    simp [registrations_snoc, hx]
  cases h with
  | registered hub c r =>
    refine ⟨?_, hs.foreign fun h => h⟩
    rw [registrations_snoc]
    exact (congrArg (fun p => Dispatcher.register p r.1 r.2) hd).trans
      (ofRegistrations_snoc _ r).symm
  | stirred c heq =>
    refine ⟨?_, hs.foreign fun h => h⟩
    rw [hsame rfl]
    exact heq.trans hd
  | @received hub c identity' es o session hp h =>
    refine ⟨?_, hs.received hp⟩
    rw [hsame rfl, ← hd]
    cases o.bind Channel.textOf <;> rfl
  | asked hp =>
    refine ⟨?_, hs.asked hp hd⟩
    rw [hsame rfl]
    exact hd
  | @sent hub c identity' reply logout es o session hp h =>
    refine ⟨?_, hs.sent hp⟩
    rw [hsame rfl, ← hd]
    cases o <;> rfl

/-! ## All courses -/

/-- **One reply for each line, in order.** A connection that has begun to serve somebody, under
handlers that were registered in any order, has sent for each line that it took, one after the other,
the answer of the handler registered last. It goes on until a line asks for a logout, which it
grants, and takes no further line. Otherwise it ends only because a line could not be taken or a reply
could not be sent: never because of what a handler has returned. -/
theorem reply_per_line (hd : hub.dispatcher = ofRegistrations regs)
    (hp : c.phase = .serving identity) (h : History Undergoes (hub, c) xs (hub', c')) :
    Stands identity regs xs c'.phase ∧
    (∀ command, hub'.dispatcher.handler? command = latest? (registrations regs xs) command) ∧
    (c'.phase.IsServing → ∀ hub, ∃ x d, x.IsOwn ∧ Undergoes (hub, c') x d) := by
  have hstep : ∀ past (d : Hub × Connection) x d',
      (d.1.dispatcher = ofRegistrations (registrations regs past) ∧
        Stands identity regs past d.2.phase) → Undergoes d x d' →
      (d'.1.dispatcher = ofRegistrations (registrations regs (past ++ [x])) ∧
        Stands identity regs (past ++ [x]) d'.2.phase) :=
    fun _ _ _ _ hpast hu => hu.keeps hpast.1 hpast.2
  have hstart : hub.dispatcher = ofRegistrations (registrations regs []) ∧
      Stands identity regs [] c.phase := by
    rw [hp]
    exact ⟨by simpa [registrations] using hd, .serving (.nil identity)⟩
  obtain ⟨hdispatcher, hstands⟩ := h.keeps hstep hstart
  refine ⟨hstands, ?_, fun hserving hub => exists_undergoes hserving hub⟩
  intro command
  rw [hdispatcher]
  exact handler?_ofRegistrations _ command

/-! ## Such courses are possible -/

section

variable {s : Session} {cipher : SessionCipher} {line : String}

/-- A line can be taken. -/
theorem exists_received (hs : CipherSuite.Lawful) (hp : c.phase = .serving identity)
    (hc : c.session = s.enter ⟨cipher, [.base64], identity⟩)
    (hk : cipher.received < SessionCrypt.directionBit)
    (hfits : ChaChaPoly.fits (Utf8.encode line).length) (hub : Hub) :
    Undergoes (hub, c) (.received (.ok line))
      (requested { c with session := s.enter ⟨{ cipher with received := cipher.received + 1 },
        [.base64], identity⟩ } identity (.ok line) hub) := by
  obtain ⟨x, -, hx, -⟩ := SessionCrypt.exists_encrypt hs hk hfits
  have hq : Enciphers cipher.secrets cipher.role.other cipher.received (Utf8.encode line)
      (Base64.encodeLine x) := ⟨x, rfl, hx⟩
  have hreceive : (c.session.receive none).Runs [.received none (.ok (Base64.encodeLine x))] _ :=
    hc ▸ Session.runs_receive_ok hq
  have h : Undergoes (hub, c) _ _ := .received hp hreceive
  simpa only [Except.bind, Channel.textOf_eq_ok_iff.2 rfl] using h

/-- A reply can be sent. -/
theorem exists_sent {reply : String} {logout : Bool} (hs : CipherSuite.Lawful)
    (hp : c.phase = .replying identity reply logout)
    (hc : c.session = s.enter ⟨cipher, [.base64], identity⟩)
    (hk : cipher.sent < SessionCrypt.directionBit)
    (hfits : ChaChaPoly.fits (Utf8.encode reply).length) (hub : Hub) :
    Undergoes (hub, c) (.sent reply (.ok ()))
      (replied { c with session := s.enter ⟨{ cipher with sent := cipher.sent + 1 }, [.base64],
        identity⟩ } identity reply logout (.ok ()) hub) := by
  obtain ⟨answer, -, -, hsend⟩ := Session.exists_runs_send hs hk hfits
  have hrun : (c.session.send (Utf8.encode reply)).Runs [.sent answer (.ok ())] _ :=
    hc ▸ hsend s identity (.ok ())
  exact .sent hp hrun

/-- A request can be answered. -/
theorem exists_request (hs : CipherSuite.Lawful) (hp : c.phase = .serving identity)
    (hc : c.session = s.enter ⟨cipher, [.base64], identity⟩)
    (hk : cipher.sent < SessionCrypt.directionBit) (hk' : cipher.received < SessionCrypt.directionBit)
    (hl : Request.isLogout line = false) (hline : ChaChaPoly.fits (Utf8.encode line).length)
    {reply : String} (hreply : Request.replyTo hub identity line = reply)
    (hfits : ChaChaPoly.fits (Utf8.encode reply).length) :
    ∃ hub' c', History Undergoes (hub, c)
        [.received (.ok line), .asked hub.table, .sent reply (.ok ())] (hub', c') ∧
      hub'.dispatcher = hub.dispatcher ∧ c'.phase = .serving identity ∧
      c'.session = s.enter ⟨{ cipher with
        sent := cipher.sent + 1, received := cipher.received + 1 }, [.base64], identity⟩ := by
  let session := s.enter ⟨{ cipher with received := cipher.received + 1 }, [.base64], identity⟩
  let taken : Hub × Connection := (hub.count (.messageReceived (.ofNat (Utf8.size line))),
    { c with session, phase := .dispatching identity line })
  have htaken : Undergoes (hub, c) (.received (.ok line)) taken := by
    simpa [requested, hl] using exists_received hs hp hc hk' hline hub
  have hasked : Undergoes taken (.asked hub.table) (taken.2.dispatch identity line taken.1) :=
    .asked rfl
  have hdispatch : taken.2.dispatch identity line taken.1 =
      (taken.1, { c with session, phase := .replying identity reply false }) := by
    rw [← hreply]
    rfl
  rw [hdispatch] at hasked
  have hsent := exists_sent (c := { c with session, phase := .replying identity reply false })
    hs rfl rfl hk hfits taken.1
  exact ⟨_, _, .cons htaken (.cons hasked (.cons hsent (.nil _))), rfl, rfl, rfl⟩

end

/-- Handlers for two commands, of which one fails. -/
def oldHandlers : List (Registration SessionTable) :=
  [("!ping", fun _ _ _ => .ok "old"), ("!fail", fun _ _ _ => .error .timeout)]

omit [CipherSuite] in
/-- A handler is replaced and asked, another one fails, a third is missing, and somebody leaves. -/
theorem reply_per_line_of_replaced :
    ∃ (suite : CipherSuite) (xs : List Incident) (c : Connection), suite.Lawful ∧
      lines xs = ["!ping now", "!fail", "hello", " !logout "] ∧
      replies xs = ["pong", "Error: Timeout occurred", "Error: Unknown request.",
        "Successfully logged out."] ∧
      c.phase = .unbinding "alice" ∧ Stands "alice" oldHandlers xs c.phase := by
  let suite := CipherSuite.between (.zero 32) (.ofPrefix 32 [1])
  have hs : suite.Lawful := CipherSuite.lawful_between (.zero 32) (.ofPrefix 32 [1])
  let r : Registration SessionTable := ("!ping", fun _ _ _ => .ok "pong")
  let s : Session := .new [.base64] ⟨.zero 32⟩ none
  let cipher : SessionCipher := .new ⟨⟨.zero 32⟩, ⟨.zero 16⟩⟩ .responder
  let c : Connection := ⟨1, s.enter ⟨cipher, [.base64], "alice"⟩, .serving "alice"⟩
  let hub : Hub := .new (ofRegistrations (oldHandlers ++ [r]))
  have hstart : Undergoes (.new (ofRegistrations oldHandlers), c) (.registered r) (hub, c) :=
    .registered _ c r
  have hreply {hub' : Hub} (hd : hub'.dispatcher = hub.dispatcher) (line : String) :
      Request.replyTo hub' "alice" line = answer "alice" line (oldHandlers ++ [r], hub'.table) :=
    replyTo_eq hd "alice" line
  have hfirst : Request.replyTo hub "alice" "!ping now" = "pong" := hreply rfl _
  obtain ⟨hub₁, c₁, h₁, hd₁, hp₁, hc₁⟩ := exists_request (c := c) hs rfl rfl (by decide) (by decide)
    (by decide) (by decide) hfirst (by decide)
  have hsecond : Request.replyTo hub₁ "alice" "!fail" = "Error: Timeout occurred" := hreply hd₁ _
  obtain ⟨hub₂, c₂, h₂, hd₂, hp₂, hc₂⟩ := exists_request hs hp₁ hc₁ (by decide) (by decide)
    (by decide) (by decide) hsecond (by decide)
  have hthird : Request.replyTo hub₂ "alice" "hello" = "Error: Unknown request." :=
    hreply (hd₂.trans hd₁) _
  obtain ⟨hub₃, c₃, h₃, hd₃, hp₃, hc₃⟩ := exists_request hs hp₂ hc₂ (by decide) (by decide)
    (by decide) (by decide) hthird (by decide)
  have htaken : Undergoes (hub₃, c₃) (.received (.ok " !logout ")) _ :=
    exists_received hs hp₃ hc₃ (by decide) (by decide) hub₃
  have hsent := exists_sent (c := { c₃ with
      session := s.enter ⟨⟨cipher.secrets, .responder, 3, 4⟩, [.base64], "alice"⟩
      phase := .replying "alice" Request.loggedOut true }) hs rfl rfl (by decide) (by decide)
    (hub₃.count (.messageReceived (.ofNat (Utf8.size " !logout "))))
  have hcourse := History.append_iff.2 ⟨_, .cons hstart h₁, History.append_iff.2 ⟨_, h₂,
    History.append_iff.2 ⟨_, h₃, .cons htaken (.cons hsent (.nil _))⟩⟩⟩
  exact ⟨suite, _, _, hs, rfl, rfl, rfl, (reply_per_line rfl rfl hcourse).1⟩

end Connection

/-- A change keeps the handlers. -/
theorem Connection.Makes.dispatcher_eq {c : Connection} {change : Connection.Change}
    (h : c.Makes change) (hub : Hub) : (change hub).1.dispatcher = hub.dispatcher := by
  rcases h.unasked_or_dispatch with hsame | ⟨identity, line, -, rfl⟩
  · have := hsame hub hub.dispatcher
    exact congrArg (fun r => r.1.dispatcher) this
  · rfl

/-- **Whatever else happens to a server**, a connection undergoes it. -/
theorem Server.Moves.undergoes [CipherSuite] {s t : Server} (h : Server.Moves s t)
    (c : Connection) : ∃ x : Connection.Incident, ¬ x.IsOwn ∧
      Connection.Undergoes (s.hub, c) x (t.hub, c) := by
  cases h with
  | register command handler =>
    exact ⟨.registered (command, handler), id, .registered s.hub c (command, handler)⟩
  | accept =>
    refine ⟨.stirred, id, .stirred c ?_⟩
    unfold Server.accept
    split_ifs <;> rfl
  | missed => exact ⟨.stirred, id, .stirred c rfl⟩
  | step _ hruns =>
    exact ⟨.stirred, id, .stirred c ((Connection.makes_of_runs hruns).dispatcher_eq s.hub)⟩
  | shutdown => exact ⟨.stirred, id, .stirred c rfl⟩

end SealedChat
