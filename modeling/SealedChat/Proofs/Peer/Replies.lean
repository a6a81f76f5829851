import SealedChat.Config.Settings
import SealedChat.Proofs.Channel.Disconnect
import SealedChat.Proofs.Peer.Answer

/-!
# What replies look like

A sender tells the two kinds of reply apart by their first letters. A notice always starts with its
mark, and an acknowledgment starts with the name of the receiver, so it is taken for a notice just
when that name starts with the mark (`reported_as_sent`).

A reply has a tag of its own. An acknowledgment is short, but a notice is longer than what it echoes,
by 55 bytes less what it leaves out (`length_reply`), so the reply to a line near the limit
may be a line that the sender cannot read (`reply_fits_iff`).
-/

namespace SealedChat

namespace PrivateMessage

variable {receiver : String}

/-! ## Two kinds of reply -/

/-- An acknowledgment starts like the name of its receiver. -/
theorem isSome_after?_ack (receiver : String) :
    (Words.after? tamperedMark.toList (ack receiver).toList).isSome = true ↔
      tamperedMark.toList <+: receiver.toList := by
  have hspace : ' ' ∉ tamperedMark.toList := by decide
  have hack : (ack receiver).toList =
      receiver.toList ++ ' ' :: "replied with !ack.".toList := by
    simp only [ack, String.toList_append, List.append_assoc]
    rfl
  rw [Option.isSome_iff_exists, hack]
  simp only [Words.after?_eq_some_iff]
  constructor
  · rintro ⟨rest, heq⟩
    rcases List.append_eq_append_iff.1 heq with ⟨tail, hmark, hrest⟩ | ⟨tail, hname, -⟩
    · -- the mark would go on behind the name, where there is a space
      cases tail with
      | nil => exact ⟨[], by rw [hmark, List.append_nil, List.append_nil]⟩
      | cons c tail =>
        rw [List.cons_append, List.cons.injEq] at hrest
        refine absurd ?_ hspace
        rw [hmark, hrest.1]
        simp
    · exact ⟨tail, hname.symm⟩
  · rintro ⟨tail, hname⟩
    exact ⟨tail ++ ' ' :: "replied with !ack.".toList, by rw [← hname, List.append_assoc]⟩

/-- **What a sender reads from a reply that comes through.** A notice is reported as one. So is an
acknowledgment from a receiver whose name starts with the mark of notices, and no other. -/
theorem reported_as_sent (peer receiver : String) (v : Verified) :
    let report := Report.ofReply peer (.authentic (Utf8.encode (replyFor receiver v)))
    (report.forwardTampered = true ↔
      v.isAuthentic = false ∨ tamperedMark.toList <+: receiver.toList) ∧
    report.replyTampered = false ∧
    (report.isClean = true ↔
      v.isAuthentic = true ∧ ¬tamperedMark.toList <+: receiver.toList) := by
  intro report
  have hforward : report.forwardTampered = true ↔
      v.isAuthentic = false ∨ tamperedMark.toList <+: receiver.toList := by
    simp only [report, Report.ofReply, Verified.text_authentic_encode]
    cases v with
    | authentic payload => simp [replyFor, Verified.isAuthentic, isSome_after?_ack]
    | tampered body => simp [replyFor, Verified.isAuthentic, isSome_after?_tampered]
  have hreply : report.replyTampered = false := rfl
  refine ⟨hforward, hreply, ?_⟩
  rw [Report.isClean, hreply, Bool.and_eq_true, Bool.not_eq_true', ← Bool.not_eq_true, hforward]
  simp

/-- A valid name that starts with the mark of notices: a message that came through unchanged is
reported as tampered with. -/
theorem reported_as_tampered : Principal.IsValid "!tampered" ∧
    replyFor "!tampered" (.authentic (Utf8.encode (compose "alice" "hi"))) =
      "!tampered replied with !ack." ∧
    (Report.ofReply "bob" (.authentic (Utf8.encode (replyFor "!tampered"
      (.authentic (Utf8.encode (compose "alice" "hi"))))))).forwardTampered = true := by
  refine ⟨by decide, by decide, ?_⟩
  simp only [Report.ofReply, Verified.text_authentic_encode]
  decide

/-! ## Sizes -/

theorem size_ack (receiver : String) : Utf8.size (ack receiver) = Utf8.size receiver + 19 := by
  have hwith : Utf8.size " replied with " = 14 := by decide
  have hmark : Utf8.size ackMark = 4 := by decide
  have hdot : Utf8.size "." = 1 := by decide
  simp only [ack, Utf8.size_append, hwith, hmark, hdot]

/-- How many bytes of what has been received a notice leaves out: the command, and a space behind
it. -/
def omitted (received : String) : Nat :=
  match Words.after? command.toList received.toList with
  | some rest => if rest.head? = some ' ' then 5 else 4
  | none => 0

theorem size_tampered (received : String) :
    Utf8.size (tampered received) + omitted received = Utf8.size received + 10 := by
  have hmark : Utf8.size tamperedMark = 9 := by decide
  have hspace : Utf8.size " " = 1 := by decide
  have hcommand : (Utf8.encodeChars command.toList).length = 4 := by decide
  have hblank : (Utf8.encodeChar ' ').length = 1 := by decide
  have hofList (cs : List Char) : Utf8.size (String.ofList cs) = (Utf8.encodeChars cs).length := by
    rw [Utf8.size, Utf8.encode, String.toList_ofList]
  have happend (as bs : List Char) : (Utf8.encodeChars (as ++ bs)).length =
      (Utf8.encodeChars as).length + (Utf8.encodeChars bs).length := by simp [Utf8.encodeChars]
  rw [tampered, omitted, Utf8.size_append, Utf8.size_append, hmark, hspace, hofList]
  rw [Utf8.size, Utf8.encode]
  cases h : Words.after? command.toList received.toList with
  | none =>
    dsimp only
    omega
  | some rest =>
    rw [Words.after?_eq_some_iff.1 h, happend, hcommand]
    cases rest with
    | nil => rfl
    | cons c rest =>
      by_cases hc : c = ' '
      · subst hc
        simp [Words.after?, hblank]
        omega
      · simp [Words.after?, hc, Ne.symm hc]
        omega

end PrivateMessage

/-! ## Lines of any length -/

/-- A whole line is the first answer of a transport, if it is not too long. -/
theorem Transport.Answers.poll_line {limit : Nat} {u : Transport} {line : Bytes}
    (h : Answers limit [] u) (hc : u.closed = false) (hcancel : u.cancelled = false)
    (hu : u.unread = frame [line]) (hm : LineReader.lineFeed ∉ line) :
    u.poll.1 = some (if line.length ≤ limit then LineReader.checked line
      else .error .lineTooLong) := by
  have hanswered := h.answered
  obtain ⟨horderly, hlimit⟩ := hanswered.orderly nofun
  obtain ⟨o, arrived, reader, hpoll, hverdict, -⟩ := horderly.poll hanswered.spent
  have hbytes : u.reader.buffer ++ u.arrived = line ++ LineReader.lineFeed :: [] := by
    rw [← frame_nil, ← frame_cons]
    exact hu
  rw [poll_of_open hc hcancel, hpoll]
  rw [hbytes, show u.reader.limit = limit from hlimit] at hverdict
  have hmem : LineReader.lineFeed ∈ line ++ LineReader.lineFeed :: [] := by simp
  generalize hb : line ++ LineReader.lineFeed :: [] = b at hverdict hmem
  generalize reader.buffer ++ arrived = left at hverdict
  cases hverdict with
  | @line first rest hm' hl =>
    obtain rfl : line = first := by
      have hs := LineReader.splitLine?_append hm []
      rw [hb, LineReader.splitLine?_append hm'] at hs
      exact (congrArg Prod.fst (Option.some.inj hs)).symm
    rw [if_pos hl]
  | tooLong hm' _ =>
    have hlong : ¬line.length ≤ limit := by
      intro hl
      refine hm' ?_
      rw [← hb, List.take_append, List.take_of_length_le (by omega),
        show limit + 1 - line.length = limit - line.length + 1 by omega, List.take_succ_cons]
      simp
    rw [if_neg hlong]
  | last _ hm' => exact absurd hmem hm'
  | spent _ hspent =>
    rcases hspent with rfl | rfl
    · cases hmem
    · exact absurd hmem (by decide)
  | more _ hm' => exact absurd hmem hm'

namespace Peer

open Dialogue PrivateMessage Tagged

variable {key : IntegrityKey} {receiver : String} {line : Bytes}

/-- The longest line that listeners and senders of private messages read. -/
def lineLimit : Nat := defaultLineLength.toNat

theorem length_line (key : IntegrityKey) (payload : Bytes) :
    (Tagged.line key payload).length = payload.length + 45 := by
  rw [Tagged.line, List.length_append, List.length_cons, Base64.length_encodeLine,
    (key.tag payload).length_bytes]
  omega

/-- How long the reply to a line is. -/
theorem length_reply (hl : IsLine line) {v : Verified} (h : Tagged.verify key line = v)
    (receiver : String) : (Tagged.line key (Utf8.encode (replyFor receiver v))).length =
      if v.isAuthentic then Utf8.size receiver + 64
      else v.payload.length + 55 - omitted v.text := by
  obtain ⟨text, htext, -⟩ := exists_text hl key
  rw [h] at htext
  have hv : v.text = text := by rw [Verified.text, htext, Utf8.decodeLossy_encode]
  rw [hv, htext, length_line]
  cases v with
  | authentic payload =>
    have hsize := size_ack receiver
    rw [Utf8.size] at hsize
    simp only [replyFor, Verified.isAuthentic, hsize, if_true]
  | tampered body =>
    have hbody : Utf8.decodeLossy body = text := hv
    have hsize := size_tampered text
    rw [Utf8.size, Utf8.size] at hsize
    simp only [replyFor, Verified.isAuthentic, hbody, Bool.false_eq_true, if_false]
    omega

/-- **Which replies fit.** For a line that comes in, a receiver puts out one reply, and that can be
read by a sender with the same limit just when it is short enough. Acknowledgments are. A notice is
not, if what it echoes leaves too little room for its tag and its mark: it echoes all of the
payload but the command. -/
theorem reply_fits_iff [CipherSuite] (key : IntegrityKey) (hr : Principal.IsValid receiver)
    {t t' : Transport} (hpoll : t.poll = (some (.ok line), t')) {limit : Option Duration}
    {es : List Event} {r : Outcome Incoming × Channel}
    (hrun : (answer key [] receiver limit).Runs (.received limit (.ok line) :: es) r) :
    let v := Tagged.verify key line
    ∃ reply o, es = [.sent reply o] ∧
      reply = Tagged.line key (Utf8.encode (replyFor receiver v)) ∧
      (reply.length = if v.isAuthentic then Utf8.size receiver + 64
        else v.payload.length + 55 - omitted v.text) ∧
      (reply.length ≤ lineLimit ↔
        v.isAuthentic = true ∨ v.payload.length + 55 ≤ lineLimit + omitted v.text) ∧
      ∀ u : Transport, u.Answers lineLimit [] → u.closed = false → u.cancelled = false →
        u.unread = frame [reply] → LineReader.carriageReturn ∉ reply →
        u.poll.1 = some (if reply.length ≤ lineLimit then .ok reply else .error .lineTooLong) := by
  intro v
  have hl := (Transport.poll_eq_line hpoll).1
  have hlength := length_reply (v := v) hl rfl receiver
  rw [answer_line] at hrun
  obtain ⟨_, _, hes, hsend⟩ := runs_receive_iff.1 hrun
  cases hes
  obtain ⟨o, _, rfl, hdone⟩ := runs_send_iff.1 hsend
  obtain ⟨rfl, -⟩ := runs_done_iff.1 hdone
  refine ⟨_, o, rfl, rfl, hlength, ?_, fun u hu hc hcancel hunread hcr => ?_⟩
  · have hsize : Utf8.size receiver ≤ 64 := hr.2.1
    have hlimit : lineLimit = 65536 := rfl
    rw [hlength]
    clear_value v
    cases v.isAuthentic with
    | true =>
      simp only [if_true, true_or, iff_true]
      omega
    | false =>
      simp only [Bool.false_eq_true, if_false, false_or]
      omega
  · obtain ⟨text, htext, hfeed⟩ := exists_text hl key
    have hv : v.text = text := by rw [Verified.text, htext, Utf8.decodeLossy_encode]
    have hfeed := not_mem_reply key hr (hv ▸ hfeed)
    have hclean : IsClean _ _ := ⟨⟨isValid_line key _, hfeed, hcr⟩, Nat.le_refl _⟩
    rw [hu.poll_line hc hcancel hunread hfeed, LineReader.checked_of_isClean hclean]

/-- A new transport on which a line arrives answers with it, if it is not too long. -/
theorem poll_new (limit : Nat) (hm : LineReader.lineFeed ∉ line) :
    ∃ t', ((Transport.new limit).arrive (frame [line])).2.poll =
      (some (if line.length ≤ limit then LineReader.checked line else .error .lineTooLong), t') :=
  ⟨_, Prod.ext ((Transport.Answers.arrive _ .new).poll_line rfl rfl rfl hm) rfl⟩

/-- A short word without a tag, whose notice comes back to the sender. -/
theorem reply_fits_of_word : ∃ (suite : CipherSuite) (key : IntegrityKey) (t t' : Transport)
    (reply : Bytes), suite = .between (.zero 32) (.zero 32) ∧
    t = ((Transport.new lineLimit).arrive (frame [Utf8.encode "hello"])).2 ∧
    t.poll = (some (.ok (Utf8.encode "hello")), t') ∧
    reply = Tagged.line key (Utf8.encode "!tampered hello") ∧
    (answer key [] "bob" none).Runs
      [.received none (.ok (Utf8.encode "hello")), .sent reply (.ok ())]
      (.ok ⟨"hello", false⟩, []) ∧
    reply.length = 60 ∧
    ((Transport.new lineLimit).arrive (frame [reply])).2.poll.1 = some (.ok reply) := by
  let suite := CipherSuite.between (.zero 32) (.zero 32)
  let key : IntegrityKey := ⟨List.replicate 16 0, by simp⟩
  let line := Utf8.encode "hello"
  let t := ((Transport.new lineLimit).arrive (frame [line])).2
  have hr : Principal.IsValid "bob" := by decide
  have hchecked : LineReader.checked line = .ok line := by decide
  obtain ⟨t', hpoll⟩ := poll_new lineLimit (show LineReader.lineFeed ∉ line by decide)
  rw [if_pos (by decide), hchecked] at hpoll
  have hverify : Tagged.verify key line = .tampered line := by
    rw [Tagged.verify, split?_of_not_mem (by decide)]
  have htext : Utf8.decodeLossy line = "hello" := Utf8.decodeLossy_encode _
  have hreply : replyFor "bob" (.tampered line) = "!tampered hello" := by
    rw [replyFor, htext]
    rfl
  let reply := Tagged.line key (Utf8.encode "!tampered hello")
  have hrun : (answer key [] "bob" none).Runs
      [.received none (.ok line), .sent reply (.ok ())] (.ok ⟨"hello", false⟩, []) := by
    rw [answer_line, runs_receive_iff]
    refine ⟨_, _, rfl, ?_⟩
    simp only [hverify, hreply]
    rw [runs_send_iff]
    refine ⟨_, _, rfl, runs_done_iff.2 ⟨rfl, ?_⟩⟩
    rw [← htext]
    rfl
  obtain ⟨_, _, -, rfl, hlength, -, hread⟩ := reply_fits_iff key hr hpoll hrun
  have heq : reply = Tagged.line key (Utf8.encode (replyFor "bob" (Tagged.verify key line))) := by
    rw [hverify, hreply]
  rw [← heq] at hlength hread
  have hsize : reply.length = 60 := by
    rw [hlength, hverify, Verified.text, Verified.payload, htext]
    decide
  have hcr : LineReader.carriageReturn ∉ reply := by
    intro hm
    exact absurd ((mem_line_iff (c := '\r') (.inr rfl) _).1 hm) (by decide)
  have hanswers : (((Transport.new lineLimit).arrive (frame [reply])).2).Answers lineLimit [] :=
    .arrive _ .new
  have hreceived := hread _ hanswers rfl rfl rfl hcr
  rw [if_pos (by rw [hsize]; decide)] at hreceived
  exact ⟨suite, key, t, t', reply, rfl, rfl, hpoll, rfl, hrun, hsize, hreceived⟩

/-! ## A notice that does not fit -/

/-- As many letters as a line may have, and no tag. -/
def longWord : Bytes := List.replicate lineLimit 120

theorem isClean_longWord : IsClean lineLimit longWord where
  isValid := Utf8.isValid_of_ascii fun x hx => by
    rw [List.eq_of_mem_replicate hx]
    decide
  not_mem := by
    constructor <;>
    · intro hm
      exact absurd (List.eq_of_mem_replicate hm) (by decide)
  length_le := Nat.le_of_eq List.length_replicate

/-- The notice of a long word echoes all of it. -/
theorem verify_longWord (key : IntegrityKey) :
    ∃ text : String, text.toList = List.replicate lineLimit 'x' ∧ longWord = Utf8.encode text ∧
      Tagged.verify key longWord = .tampered (Utf8.encode text) ∧ omitted text = 0 := by
  have hencode (n : Nat) :
      List.replicate n (120 : UInt8) = Utf8.encodeChars (List.replicate n 'x') := by
    induction n with
    | zero => rfl
    | succ n ih =>
      rw [List.replicate_succ, List.replicate_succ, ih]
      rfl
  have htext : longWord = Utf8.encode (String.ofList (List.replicate lineLimit 'x')) := by
    rw [Utf8.encode, String.toList_ofList, longWord, hencode]
  have hverify : Tagged.verify key longWord = .tampered longWord := by
    rw [Tagged.verify, split?_of_not_mem]
    intro hm
    exact absurd (List.eq_of_mem_replicate hm) (by decide)
  have hafter (n : Nat) : Words.after? command.toList (List.replicate n 'x') = none := by
    cases n with
    | zero => rfl
    | succ n => rfl
  refine ⟨_, String.toList_ofList, htext, by rw [hverify, htext], ?_⟩
  rw [omitted, String.toList_ofList, hafter]

/-- The longest line of all is received and answered, but what a sender gets for it is an error of
its transport. -/
theorem reply_too_long : ∃ (suite : CipherSuite) (key : IntegrityKey) (t t' : Transport)
    (text : String) (reply : Bytes), suite = .between (.zero 32) (.zero 32) ∧
    longWord = Utf8.encode text ∧ longWord.length ≤ lineLimit ∧
    t = ((Transport.new lineLimit).arrive (frame [longWord])).2 ∧
    t.poll = (some (.ok longWord), t') ∧ Principal.IsValid "bob" ∧
    (answer key [] "bob" none).advance ⟨t, ⟨0, none⟩⟩ =
      (.done (.ok ⟨text, false⟩, []), ⟨{ t' with written := [reply] }, ⟨0, none⟩⟩) ∧
    reply.length = lineLimit + 55 ∧
    ((Transport.new lineLimit).arrive (frame [reply])).2.poll.1 = some (.error .lineTooLong) := by
  let suite := CipherSuite.between (.zero 32) (.zero 32)
  let key : IntegrityKey := ⟨List.replicate 16 0, by simp⟩
  let t := ((Transport.new lineLimit).arrive (frame [longWord])).2
  have hr : Principal.IsValid "bob" := by decide
  obtain ⟨text, hchars, htext, hverify, homitted⟩ := verify_longWord key
  have hlf : LineReader.lineFeed ∉ longWord := isClean_longWord.not_mem.1
  obtain ⟨t', hpoll⟩ := poll_new lineLimit hlf
  rw [if_pos isClean_longWord.length_le, LineReader.checked_of_isClean isClean_longWord] at hpoll
  obtain ⟨hl, hc, hb, hwritten⟩ := Transport.poll_eq_line hpoll
  have hv : (Tagged.verify key longWord).text = text := by
    rw [hverify, Verified.text, Verified.payload, Utf8.decodeLossy_encode]
  have hnot {c : Char} (hne : c ≠ 'x') : c ∉ (Tagged.verify key longWord).text.toList := by
    rw [hv, hchars]
    exact fun hm => hne (List.eq_of_mem_replicate hm)
  have hfeed : '\n' ∉ (Tagged.verify key longWord).text.toList := hnot (by decide)
  have hecho : '\r' ∉ (Tagged.verify key longWord).text.toList := hnot (by decide)
  have hsend := send_reply key hc hb hr hfeed
  rw [if_neg fun h => hecho h.2,
    Transport.with_unwritten_nil (Transport.poll_keeps hpoll).1] at hsend
  have hlong : (Tagged.line key (Utf8.encode (replyFor "bob"
      (Tagged.verify key longWord)))).length = lineLimit + 55 := by
    rw [length_reply hl rfl, hv, homitted, hverify, Verified.isAuthentic, Verified.payload, ← htext,
      longWord, List.length_replicate]
    rfl
  refine ⟨suite, key, t, t', text, _, rfl, htext, isClean_longWord.length_le, rfl, hpoll, hr,
    ?_, hlong, ?_⟩
  · rw [advance_answer hpoll hsend, hwritten, (Transport.poll_keeps hpoll).1]
    rw [Incoming.ofVerified, hv, hverify]
    rfl
  · obtain ⟨u, hfinal⟩ := poll_new lineLimit (not_mem_reply key hr hfeed)
    rw [hfinal, if_neg (by omega)]

end Peer

end SealedChat
