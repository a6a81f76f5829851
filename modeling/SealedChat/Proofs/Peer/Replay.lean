import SealedChat.Proofs.Dialogue.Trace
import SealedChat.Proofs.Peer.Exchange

/-!
# What a clean report is worth

Any number of private exchanges under one key, and a network that may drop lines, and deliver any
line that somebody has sent to anybody and any number of times. It can make lines of its own, but
none with a genuine tag.

A tag binds a text, and neither the exchange nor the direction. So the reply that a clean report was
made of has been sent by some holder of the key: it is a message of some exchange, perhaps the
sender's own, or the acknowledgment of a receiver that has found some message genuine
(`clean_report`). That it was this message, found by this receiver, follows if the exchange was not
mixed with others; otherwise it does not, as when an old acknowledgment is played back
(`clean_report_replayed`).
-/

namespace SealedChat.Peer

open Dialogue PrivateMessage Tagged

/-! ## Runs -/

/-- A private exchange: who sends what to whom, and how long either side waits. -/
structure Call where
  sender : String
  peer : String
  text : String
  limit : Duration
  wait : Option Duration

/-- The two sides of an exchange. -/
inductive Side where
  | sending
  | receiving
deriving DecidableEq

/-- What is received was sent before, or is not made with the key. -/
def Carried (key : IntegrityKey) {π : Type} (before : Trace π) (_ : π) : Event → Prop
  | .received _ (.ok line) => before.Sent line ∨ Foreign key line
  | _ => True

variable [CipherSuite] (key : IntegrityKey)

namespace Call

def message (c : Call) : String := compose c.sender c.text

def deliver (c : Call) : Dialogue (Outcome Report × Channel) :=
  Peer.deliver key [] c.sender c.peer c.text c.limit

def answer (c : Call) : Dialogue (Outcome Incoming × Channel) := Peer.answer key [] c.peer c.wait

end Call

/-- Each side of each exchange has begun, and the network has carried the lines. -/
structure IsRun {ε : Type} [DecidableEq ε] (calls : ε → Call) (τ : Trace (ε × Side)) : Prop where
  delivers : ∀ i, ((calls i).deliver key).Begins (τ.of (i, .sending))
  answers : ∀ i, ((calls i).answer key).Begins (τ.of (i, .receiving))
  carried : τ.Along (Carried key)

/-! ## One exchange -/

namespace Call

variable {key} {c : Call} {es : List Event} {line : Bytes}

/-- A sender fails to send its message, or waits for a reply. -/
theorem deliver_cases {a : Outcome Report × Channel} (h : (c.deliver key).Runs es a) :
    (∃ e, es = [.sent (Tagged.line key (Utf8.encode c.message)) (.error e)] ∧
      a = (.error e, [])) ∨
    ∃ o, es = [.sent (Tagged.line key (Utf8.encode c.message)) (.ok ()),
        .received (some c.limit) o] ∧
      a = ((o.map (Tagged.verify key)).map (Report.ofReply c.peer), []) := by
  rw [deliver, deliver_line] at h
  obtain ⟨o, es', rfl, h₁⟩ := runs_send_iff.1 h
  cases o with
  | error e =>
    obtain ⟨rfl, rfl⟩ := runs_done_iff.1 h₁
    exact .inl ⟨e, rfl, rfl⟩
  | ok u =>
    obtain ⟨o, es'', rfl, h₂⟩ := runs_receive_iff.1 h₁
    obtain ⟨rfl, rfl⟩ := runs_done_iff.1 h₂
    exact .inr ⟨o, rfl, rfl⟩

/-- A receiver receives no message, or replies to one. -/
theorem answer_cases {a : Outcome Incoming × Channel} (h : (c.answer key).Runs es a) :
    (∃ e, es = [.received c.wait (.error e)] ∧ a = (.error e, [])) ∨
    ∃ received o, es = [.received c.wait (.ok received),
        .sent (Tagged.line key (Utf8.encode (replyFor c.peer (Tagged.verify key received)))) o] ∧
      a = (o.map fun _ => Incoming.ofVerified (Tagged.verify key received), []) := by
  rw [answer, answer_line] at h
  obtain ⟨o, es', rfl, h₁⟩ := runs_receive_iff.1 h
  cases o with
  | error e =>
    obtain ⟨rfl, rfl⟩ := runs_done_iff.1 h₁
    exact .inl ⟨e, rfl, rfl⟩
  | ok received =>
    obtain ⟨o, es'', rfl, h₂⟩ := runs_send_iff.1 h₁
    obtain ⟨rfl, rfl⟩ := runs_done_iff.1 h₂
    exact .inr ⟨received, o, rfl, rfl⟩

/-- A report is made of one line. -/
theorem deliver_ok {report : Report} {channel : Channel}
    (h : (c.deliver key).Runs es (.ok report, channel)) :
    ∃ line, es = [.sent (Tagged.line key (Utf8.encode c.message)) (.ok ()),
        .received (some c.limit) (.ok line)] ∧
      report = Report.ofReply c.peer (Tagged.verify key line) := by
  rcases deliver_cases h with ⟨e, -, he⟩ | ⟨o, rfl, ho⟩
  · cases he
  · cases o with
    | error e => cases ho
    | ok line =>
      cases ho
      exact ⟨line, rfl, rfl⟩

/-- A sender sends its message and nothing else. -/
theorem line_of_deliver {o : Outcome Unit} (h : (c.deliver key).Begins es)
    (hm : .sent line o ∈ es) : line = Tagged.line key (Utf8.encode c.message) := by
  obtain ⟨rest, a, h⟩ := h
  have hm' : .sent line o ∈ es ++ rest := List.mem_append_left rest hm
  rcases deliver_cases h with ⟨e, hes, -⟩ | ⟨o', hes, -⟩
  · rw [hes, List.mem_singleton] at hm'
    cases hm'
    rfl
  · rw [hes, List.mem_pair] at hm'
    rcases hm' with hm' | hm'
    · cases hm'
      rfl
    · cases hm'

/-- A receiver that has replied keeps what it has replied to. -/
theorem answer_of_sent (h : (c.answer key).Begins es) (hm : .sent line (.ok ()) ∈ es) :
    ∃ received, es = [.received c.wait (.ok received), .sent line (.ok ())] ∧
      line = Tagged.line key (Utf8.encode (replyFor c.peer (Tagged.verify key received))) ∧
      (c.answer key).Runs es (.ok (Incoming.ofVerified (Tagged.verify key received)), []) := by
  obtain ⟨rest, a, h⟩ := h
  have hm' : .sent line (.ok ()) ∈ es ++ rest := List.mem_append_left rest hm
  rcases answer_cases h with ⟨e, hes, -⟩ | ⟨received, o, hes, ha⟩
  · rw [hes, List.mem_singleton] at hm'
    cases hm'
  · rw [hes, List.mem_pair] at hm'
    rcases hm' with hm' | hm'
    · cases hm'
    cases hm'
    -- the reply is the last event of the course
    match es, hm with
    | [x], hm =>
      rw [List.mem_singleton] at hm
      subst hm
      cases hes
    | x :: y :: es', _ =>
      obtain ⟨rfl, rfl, hnil⟩ : x = _ ∧ y = _ ∧ es' ++ rest = [] := by simpa using hes
      obtain ⟨rfl, rfl⟩ := List.append_eq_nil_iff.1 hnil
      rw [List.append_nil, ha] at h
      exact ⟨received, rfl, rfl, h⟩

end Call

/-! ## All exchanges -/

namespace IsRun

variable {key} {ε : Type} [DecidableEq ε] {calls : ε → Call} {τ : Trace (ε × Side)}

/-- What has been sent is a message, or a reply to what has been received. -/
theorem sent_cases (h : IsRun key calls τ) {line : Bytes} (hl : τ.Sent line) :
    (∃ j, .sent line (.ok ()) ∈ τ.of (j, Side.sending) ∧
      line = Tagged.line key (Utf8.encode (calls j).message)) ∨
    ∃ j received, (.received (calls j).wait (.ok received)) ∈ τ.of (j, Side.receiving) ∧
      line = Tagged.line key
        (Utf8.encode (replyFor (calls j).peer (Tagged.verify key received))) ∧
      ((calls j).answer key).Runs (τ.of (j, Side.receiving))
        (.ok (Incoming.ofVerified (Tagged.verify key received)), []) := by
  obtain ⟨⟨j, side⟩, hm⟩ := hl
  rw [← Trace.mem_of] at hm
  cases side with
  | sending => exact .inl ⟨j, hm, Call.line_of_deliver (h.delivers j) hm⟩
  | receiving =>
    obtain ⟨received, hes, hline, hrun⟩ := Call.answer_of_sent (h.answers j) hm
    exact .inr ⟨j, received, by simp [hes], hline, hrun⟩

/-- Whatever has been sent is a tagged text. -/
theorem exists_text (h : IsRun key calls τ) {line : Bytes} (hl : τ.Sent line) :
    ∃ text, line = Tagged.line key (Utf8.encode text) := by
  rcases h.sent_cases hl with ⟨j, -, hline⟩ | ⟨j, received, -, hline, -⟩
  · exact ⟨_, hline⟩
  · exact ⟨_, hline⟩

/-- What is received with a genuine tag has been sent. -/
theorem sent_of_authentic (h : IsRun key calls τ) {p : ε × Side} {limit : Option Duration}
    {line payload : Bytes} (hm : .received limit (.ok line) ∈ τ.of p)
    (hv : Tagged.verify key line = .authentic payload) :
    ∃ text, payload = Utf8.encode text ∧ τ.Sent (Tagged.line key (Utf8.encode text)) := by
  obtain ⟨before, after, hτ⟩ := List.append_of_mem (Trace.mem_of.1 hm)
  rw [verify_eq_authentic_iff] at hv
  subst hv
  rcases h.carried.possible hτ with hs | hf
  · have hs : τ.Sent (Tagged.line key payload) := hτ ▸ hs.append _
    obtain ⟨text, heq⟩ := h.exists_text hs
    obtain rfl := line_injective key heq
    exact ⟨text, rfl, hs⟩
  · exact absurd rfl (hf payload)

end IsRun

omit [CipherSuite] in
/-- A clean report is made of a genuine line that is no notice. -/
theorem exists_of_isClean {peer : String} {v : Verified}
    (h : (Report.ofReply peer v).isClean = true) :
    ∃ payload, v = .authentic payload ∧ ∀ received, v.text ≠ tampered received := by
  cases v with
  | tampered body =>
    rw [isClean_of_tampered rfl] at h
    cases h
  | authentic payload =>
    refine ⟨payload, rfl, fun received ht => ?_⟩
    rw [isClean_of_notice ht] at h
    cases h

/-- **What a clean report is worth.** The reply was sent by some holder of the key. It is the message
of some exchange, or the acknowledgment of a receiver whose answer has returned a genuine message
that was sent by some holder of the key. If the reply is one that the receiver of this very exchange
has sent, and that has received the message of this exchange or a line that is not made with the key,
then its answer has returned this message as genuine. -/
theorem clean_report {ε : Type} [DecidableEq ε] {calls : ε → Call} {τ : Trace (ε × Side)}
    (h : IsRun key calls τ) {i : ε} {report : Report} {channel : Channel}
    (hr : ((calls i).deliver key).Runs (τ.of (i, .sending)) (.ok report, channel))
    (hc : report.isClean = true) :
    ((∃ j, report.reply = (calls j).message ∧
        .sent (Tagged.line key (Utf8.encode report.reply)) (.ok ()) ∈ τ.of (j, .sending)) ∨
      ∃ j incoming, report.reply = ack (calls j).peer ∧
        ((calls j).answer key).Runs (τ.of (j, .receiving)) (.ok incoming, []) ∧
        incoming.authentic = true ∧ τ.Sent (Tagged.line key (Utf8.encode incoming.text))) ∧
    (.sent (Tagged.line key (Utf8.encode report.reply)) (.ok ()) ∈ τ.of (i, .receiving) →
      (∀ limit line, .received limit (.ok line) ∈ τ.of (i, .receiving) →
        line = Tagged.line key (Utf8.encode (calls i).message) ∨ Foreign key line) →
      ((calls i).answer key).Runs (τ.of (i, .receiving)) (.ok ⟨(calls i).message, true⟩, [])) := by
  obtain ⟨line, hes, rfl⟩ := Call.deliver_ok hr
  obtain ⟨payload, hv, hnotice⟩ := exists_of_isClean hc
  have hreceived : .received (some (calls i).limit) (.ok line) ∈ τ.of (i, .sending) := by simp [hes]
  obtain ⟨reply, rfl, hsent⟩ := h.sent_of_authentic hreceived hv
  have hreply : (Report.ofReply (calls i).peer (Tagged.verify key line)).reply = reply := by
    rw [hv]
    exact Verified.text_authentic_encode reply
  rw [hv, Verified.text_authentic_encode] at hnotice
  rw [hreply]
  -- a reply to something that is not genuine would be a notice
  have hgenuine {peer : String} {received : Bytes}
      (heq : Tagged.line key (Utf8.encode reply) =
        Tagged.line key (Utf8.encode (replyFor peer (Tagged.verify key received)))) :
      ∃ payload, Tagged.verify key received = .authentic payload ∧ reply = ack peer := by
    have hwords := Utf8.encode_injective (line_injective key heq)
    cases hw : Tagged.verify key received with
    | authentic payload => exact ⟨payload, rfl, by rw [hwords, hw]; rfl⟩
    | tampered body =>
      rw [hw] at hwords
      exact absurd hwords (hnotice _)
  constructor
  · rcases h.sent_cases hsent with ⟨j, hm, hline⟩ | ⟨j, received, hm, hline, hrun⟩
    · exact .inl ⟨j, Utf8.encode_injective (line_injective key hline), hm⟩
    · obtain ⟨payload, hw, hack⟩ := hgenuine hline
      obtain ⟨text, rfl, htext⟩ := h.sent_of_authentic hm hw
      rw [hw] at hrun
      refine .inr ⟨j, _, hack, hrun, rfl, ?_⟩
      simpa [Incoming.ofVerified] using htext
  · intro hown hmessage
    obtain ⟨received, hes', hline, hrun⟩ := Call.answer_of_sent (h.answers i) hown
    obtain ⟨payload, hw, -⟩ := hgenuine hline
    have hmem : .received (calls i).wait (.ok received) ∈ τ.of (i, .receiving) := by simp [hes']
    rcases hmessage _ _ hmem with rfl | hf
    · simpa [Incoming.ofVerified, Verified.isAuthentic] using hrun
    · obtain ⟨body, hbody⟩ := hf.verify
      rw [hw] at hbody
      cases hbody

/-! ## An old acknowledgment -/

omit [CipherSuite] in
/-- Two messages from one user to another. -/
def twoCalls : Bool → Call
  | false => ⟨"alice", "bob", "one", .ofSeconds 5, none⟩
  | true => ⟨"alice", "bob", "two", .ofSeconds 5, none⟩

omit [CipherSuite] in
/-- The first exchange goes as it should. The second message is lost, and the acknowledgment of the
first is played back. -/
def replayed : Trace (Bool × Side) :=
  let message := Tagged.line key (Utf8.encode (twoCalls false).message)
  let message' := Tagged.line key (Utf8.encode (twoCalls true).message)
  let reply := Tagged.line key (Utf8.encode (ack "bob"))
  [((false, .sending), .sent message (.ok ())), ((false, .receiving), .received none (.ok message)),
    ((false, .receiving), .sent reply (.ok ())),
    ((false, .sending), .received (some (.ofSeconds 5)) (.ok reply)),
    ((true, .sending), .sent message' (.ok ())),
    ((true, .sending), .received (some (.ofSeconds 5)) (.ok reply))]

/-- Both senders report what they have read, and the first receiver has its message. -/
theorem runs_replayed :
    (∀ i, ((twoCalls i).deliver key).Runs ((replayed key).of (i, .sending))
      (.ok (Report.ofReply "bob" (.authentic (Utf8.encode (ack "bob")))), [])) ∧
    ((twoCalls false).answer key).Runs ((replayed key).of (false, .receiving))
      (.ok ⟨(twoCalls false).message, true⟩, []) ∧
    (replayed key).of (true, .receiving) = [] := by
  refine ⟨fun i => ?_, ?_, rfl⟩
  · have hv := verify_line key (Utf8.encode (ack "bob"))
    cases i
    · exact runs_deliver_iff.2 ⟨rfl, by rw [hv]; rfl, rfl⟩
    · exact runs_deliver_iff.2 ⟨rfl, by rw [hv]; rfl, rfl⟩
  · have hv := verify_line key (Utf8.encode (twoCalls false).message)
    refine runs_answer_iff.2 ⟨by rw [hv]; rfl, ?_, rfl⟩
    rw [hv]
    simp [Incoming.ofVerified, Verified.isAuthentic]

theorem isRun_replayed : IsRun key twoCalls (replayed key) where
  delivers i := ((runs_replayed key).1 i).begins
  answers i := by
    cases i
    · exact (runs_replayed key).2.1.begins
    · exact begins_nil _
  carried := by
    let message := Tagged.line key (Utf8.encode (twoCalls false).message)
    let reply := Tagged.line key (Utf8.encode (ack "bob"))
    let start : Bool × Side := (false, .sending)
    have h : Trace.Along (Carried key) ([] ++ [(start, .sent message (.ok ()))]) :=
      .snoc .nil trivial
    have h := h.snoc (p := (false, .receiving)) (e := .received none (.ok message))
      (.inl ⟨start, by simp⟩)
    have h := h.snoc (p := (false, .receiving)) (e := .sent reply (.ok ())) trivial
    have h := h.snoc (p := (false, .sending)) (e := .received (some (.ofSeconds 5)) (.ok reply))
      (.inl ⟨(false, .receiving), by simp⟩)
    have h := h.snoc (p := (true, .sending))
      (e := .sent (Tagged.line key (Utf8.encode (twoCalls true).message)) (.ok ())) trivial
    exact h.snoc (p := (true, .sending)) (e := .received (some (.ofSeconds 5)) (.ok reply))
      (.inl ⟨(false, .receiving), by simp⟩)

omit [CipherSuite] in
theorem isClean_ack : (Report.ofReply "bob" (.authentic (Utf8.encode (ack "bob")))).isClean := by
  simp only [Report.isClean, Report.ofReply, Verified.text_authentic_encode]
  decide

omit [CipherSuite] in
/-- The first sender has the acknowledgment of its own message. -/
theorem clean_report_of_first : ∃ (suite : CipherSuite) (key : IntegrityKey) (report : Report),
    suite = .standard ∧ IsRun key twoCalls (replayed key) ∧
    ((twoCalls false).deliver key).Runs ((replayed key).of (false, .sending)) (.ok report, []) ∧
    report.isClean = true ∧
    ((twoCalls false).answer key).Runs ((replayed key).of (false, .receiving))
      (.ok ⟨"!msg alice: one", true⟩, []) := by
  let suite := CipherSuite.standard
  let key : IntegrityKey := ⟨List.replicate 16 0, by simp⟩
  have hrun := isRun_replayed key
  have hdeliver := (runs_replayed key).1 false
  obtain ⟨-, hown⟩ := clean_report key hrun hdeliver isClean_ack
  refine ⟨suite, key, _, rfl, hrun, hdeliver, isClean_ack, hown ?_ ?_⟩
  · simp [replayed, Trace.of, Report.ofReply]
  · intro limit line hm
    have hm : limit = none ∧ line = Tagged.line key (Utf8.encode (twoCalls false).message) := by
      simpa [replayed, Trace.of] using hm
    exact .inl hm.2

omit [CipherSuite] in
/-- **A clean report does not say that the message came through.** An old acknowledgment is genuine,
and the receiver has not heard of the message. -/
theorem clean_report_replayed : ∃ (suite : CipherSuite) (key : IntegrityKey) (report : Report),
    suite = .standard ∧ IsRun key twoCalls (replayed key) ∧
    ((twoCalls true).deliver key).Runs ((replayed key).of (true, .sending)) (.ok report, []) ∧
    report.isClean = true ∧
    ¬∃ channel, ((twoCalls true).answer key).Runs ((replayed key).of (true, .receiving))
      (.ok ⟨(twoCalls true).message, true⟩, channel) := by
  let suite := CipherSuite.standard
  let key : IntegrityKey := ⟨List.replicate 16 0, by simp⟩
  obtain ⟨hdeliver, -, hsilent⟩ := runs_replayed key
  refine ⟨suite, key, _, rfl, isRun_replayed key, hdeliver true, isClean_ack, ?_⟩
  rw [hsilent]
  intro ⟨channel, h⟩
  rcases Call.answer_cases h with ⟨e, hes, -⟩ | ⟨received, o, hes, -⟩
  · cases hes
  · cases hes

end SealedChat.Peer
