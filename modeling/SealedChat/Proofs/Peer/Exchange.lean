import SealedChat.Proofs.Cipher.Suite
import SealedChat.Proofs.Dialogue
import SealedChat.Proofs.Tagged
import SealedChat.Service.Peer

/-!
# One message and one reply

What the two sides of a private exchange do on a line (`deliver_line`, `answer_line`), and what they
learn from it when somebody on the way replaces lines by others that are not made with their key
(`tamper_evident`): the receiver knows whether the message is the one that was sent, the sender knows
whether the reply is, and a replaced message never leaves the sender with a clean report.
-/

namespace SealedChat

/-! ## Texts -/

@[simp]
theorem Verified.text_authentic_encode (s : String) : (authentic (Utf8.encode s)).text = s := by
  simp [text, payload]

namespace PrivateMessage

/-- A notice is recognized by its first word. -/
theorem isSome_after?_tampered (received : String) :
    (Words.after? tamperedMark.toList (tampered received).toList).isSome := by
  rw [tampered, String.toList_append, String.toList_append, List.append_assoc,
    Words.after?_eq_some_iff.2 rfl]
  rfl

/-- A genuine notice tells the sender that its message was changed. -/
theorem isClean_of_notice {peer received : String} {v : Verified} (h : v.text = tampered received) :
    (Report.ofReply peer v).isClean = false := by
  simp only [Report.isClean, Report.ofReply, h, isSome_after?_tampered]
  rfl

theorem isClean_of_tampered {peer : String} {v : Verified} (h : v.isAuthentic = false) :
    (Report.ofReply peer v).isClean = false := by
  simp [Report.isClean, Report.ofReply, h]

end PrivateMessage

namespace Peer

open Dialogue PrivateMessage Tagged

variable [CipherSuite] (key : IntegrityKey) (sender peer text receiver : String)

/-! ## Both sides on a line -/

/-- Sends one line, and reports what comes back. -/
theorem deliver_line (limit : Duration) : deliver key [] sender peer text limit =
    .send (Tagged.line key (Utf8.encode (compose sender text))) fun o =>
      match o with
      | .error e => .done (.error e, [])
      | .ok () => .receive (some limit) fun o =>
        .done ((o.map (Tagged.verify key)).map (Report.ofReply peer), []) := by
  refine congrArg (Dialogue.send _) (funext fun o => ?_)
  cases o <;> rfl

/-- Sends one line for a line that comes in. -/
theorem answer_line (limit : Option Duration) : answer key [] receiver limit =
    .receive limit fun o =>
      match o with
      | .error e => .done (.error e, [])
      | .ok received =>
        .send (Tagged.line key (Utf8.encode (replyFor receiver (Tagged.verify key received))))
          fun o => .done (o.map fun _ => Incoming.ofVerified (Tagged.verify key received), []) := by
  refine congrArg (Dialogue.receive limit) (funext fun o => ?_)
  cases o <;> rfl

variable {key sender peer text receiver} {sent received reply received' : Bytes}

/-- A sender that gets an answer makes its report of that. -/
theorem runs_deliver_iff {limit : Duration} {o : Outcome Report} {channel : Channel} :
    (deliver key [] sender peer text limit).Runs
        [.sent sent (.ok ()), .received (some limit) (.ok received')] (o, channel) ↔
      sent = Tagged.line key (Utf8.encode (compose sender text)) ∧
        o = .ok (Report.ofReply peer (Tagged.verify key received')) ∧ channel = [] := by
  rw [deliver_line]
  constructor
  · intro h
    obtain ⟨a, rest, hes, h⟩ := runs_send_iff.1 h
    cases hes
    obtain ⟨a, rest, hes, h⟩ := runs_receive_iff.1 h
    cases hes
    obtain ⟨-, ho⟩ := runs_done_iff.1 h
    cases ho
    exact ⟨rfl, rfl, rfl⟩
  · rintro ⟨rfl, rfl, rfl⟩
    exact .send _ (.receive _ (.done _))

/-- A receiver that replies replies to what it has received, and keeps that. -/
theorem runs_answer_iff {limit : Option Duration} {o : Outcome Incoming} {channel : Channel} :
    (answer key [] receiver limit).Runs
        [.received limit (.ok received), .sent reply (.ok ())] (o, channel) ↔
      reply = Tagged.line key (Utf8.encode (replyFor receiver (Tagged.verify key received))) ∧
        o = .ok (Incoming.ofVerified (Tagged.verify key received)) ∧ channel = [] := by
  rw [answer_line]
  constructor
  · intro h
    obtain ⟨a, rest, hes, h⟩ := runs_receive_iff.1 h
    cases hes
    obtain ⟨a, rest, hes, h⟩ := runs_send_iff.1 h
    cases hes
    obtain ⟨-, ho⟩ := runs_done_iff.1 h
    cases ho
    exact ⟨rfl, rfl, rfl⟩
  · rintro ⟨rfl, rfl, rfl⟩
    exact .receive _ (.send _ (.done _))

/-! ## Lines replaced on the way -/

omit [CipherSuite] in
/-- A line is taken for genuine exactly if it is the one that was sent. -/
theorem isAuthentic_iff {payload : Bytes}
    (h : received = Tagged.line key payload ∨ Foreign key received) :
    (Tagged.verify key received).isAuthentic = true ↔ received = Tagged.line key payload := by
  constructor
  · intro ha
    refine h.resolve_right fun hf => ?_
    obtain ⟨body, hb⟩ := hf.verify
    rw [hb] at ha
    cases ha
  · rintro rfl
    rw [verify_line]
    rfl

/-- **Nothing is replaced unnoticed.** Between sender and receiver each line may be replaced by any
that is not made with the key. The message that the receiver keeps is marked authentic exactly if it
was not replaced, and is then the text that was sent. The report of the sender says exactly if the
reply was replaced; it is never clean if the message was; and a reply that was not replaced is
reported as it was. -/
theorem tamper_evident {limit : Duration} {limit' : Option Duration} {o : Outcome Report}
    {o' : Outcome Incoming} {channel channel' : Channel}
    (hdeliver : (deliver key [] sender peer text limit).Runs
      [.sent sent (.ok ()), .received (some limit) (.ok received')] (o, channel))
    (hanswer : (answer key [] receiver limit').Runs
      [.received limit' (.ok received), .sent reply (.ok ())] (o', channel'))
    (hmessage : received = sent ∨ Foreign key received)
    (hreply : received' = reply ∨ Foreign key received') :
    ∃ report incoming, o = .ok report ∧ o' = .ok incoming ∧
      (incoming.authentic = true ↔ received = sent) ∧
      (received = sent → incoming.text = compose sender text) ∧
      (report.replyTampered = true ↔ received' ≠ reply) ∧
      (received ≠ sent → report.isClean = false) ∧
      ∃ words, reply = Tagged.line key (Utf8.encode words) ∧
        words = replyFor receiver (Tagged.verify key received) ∧
        (received' = reply → report.reply = words) := by
  obtain ⟨rfl, rfl, -⟩ := runs_deliver_iff.1 hdeliver
  obtain ⟨rfl, rfl, -⟩ := runs_answer_iff.1 hanswer
  refine ⟨_, _, rfl, rfl, isAuthentic_iff hmessage, ?_, ?_, ?_, _, rfl, rfl, ?_⟩
  · rintro rfl
    simp [Incoming.ofVerified]
  · have hiff := isAuthentic_iff hreply
    simp only [Report.ofReply, Bool.not_eq_true']
    rw [← Bool.not_eq_true, hiff]
  · intro hne
    obtain ⟨body, hbody⟩ := (hmessage.resolve_left hne).verify
    rcases hreply with rfl | hforeign
    · -- The notice comes through, and says that the message was replaced.
      rw [verify_line, hbody]
      exact isClean_of_notice (Verified.text_authentic_encode (tampered (Utf8.decodeLossy body)))
    · obtain ⟨body', hbody'⟩ := hforeign.verify
      exact isClean_of_tampered (by rw [hbody']; rfl)
  · rintro rfl
    simp [Report.ofReply]

omit [CipherSuite] in
/-- A word comes in for the message, and the notice of that comes back. -/
theorem tamper_evident_of_word : ∃ (suite : CipherSuite) (key : IntegrityKey)
    (sent reply : Bytes) (report : Report) (incoming : Incoming),
    suite = .between (.zero 32) (.zero 32) ∧
    (deliver key [] "alice" "bob" "hi" (.ofSeconds 5)).Runs
      [.sent sent (.ok ()), .received (some (.ofSeconds 5)) (.ok reply)] (.ok report, []) ∧
    (answer key [] "bob" none).Runs
      [.received none (.ok (Utf8.encode "hello")), .sent reply (.ok ())] (.ok incoming, []) ∧
    incoming.authentic = false ∧ report.isClean = false ∧ report.replyTampered = false ∧
    report.reply = "!tampered hello" := by
  let suite := CipherSuite.between (.zero 32) (.zero 32)
  let key : IntegrityKey := ⟨List.replicate 16 0, by simp⟩
  let received := Utf8.encode "hello"
  have hforeign : Foreign key received := foreign_of_not_mem (by decide)
  have hverify : Tagged.verify key received = .tampered received := by
    rw [Tagged.verify, split?_of_not_mem (by decide)]
  let sent := Tagged.line key (Utf8.encode (compose "alice" "hi"))
  let reply := Tagged.line key (Utf8.encode (replyFor "bob" (Tagged.verify key received)))
  have hdeliver : (deliver key [] "alice" "bob" "hi" (.ofSeconds 5)).Runs
      [.sent sent (.ok ()), .received (some (.ofSeconds 5)) (.ok reply)]
      (.ok (Report.ofReply "bob" (Tagged.verify key reply)), []) :=
    runs_deliver_iff.2 ⟨rfl, rfl, rfl⟩
  have hanswer : (answer key [] "bob" none).Runs
      [.received none (.ok received), .sent reply (.ok ())]
      (.ok (Incoming.ofVerified (Tagged.verify key received)), []) :=
    runs_answer_iff.2 ⟨rfl, rfl, rfl⟩
  have hne : received ≠ sent := hforeign _
  obtain ⟨report, incoming, hreport, hincoming, hauthentic, -, htampered, hclean, words, -, hwords,
    htext⟩ := tamper_evident hdeliver hanswer (.inr hforeign) (.inl rfl)
  rw [hreport] at hdeliver
  rw [hincoming] at hanswer
  refine ⟨suite, key, sent, reply, report, incoming, rfl, hdeliver, hanswer, ?_, hclean hne, ?_, ?_⟩
  · rw [← Bool.not_eq_true, hauthentic]
    exact hne
  · rw [← Bool.not_eq_true, htampered]
    exact fun h => h rfl
  · have hreceived : Utf8.decodeLossy received = "hello" := Utf8.decodeLossy_encode _
    rw [htext rfl, hwords, hverify, replyFor, hreceived]
    rfl

end Peer

end SealedChat
