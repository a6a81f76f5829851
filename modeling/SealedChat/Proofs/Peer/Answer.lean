import SealedChat.Principal
import SealedChat.Proofs.Peer.Exchange
import SealedChat.Proofs.Transport.Polled
import SealedChat.Wire.Station

/-!
# What becomes of a line that somebody answers

The receiver of a private message on a transport that is open, and any line that the transport can
answer with. Two things can happen, and the line decides which (`answer_advance`). The receiver
keeps the text of the line and writes one reply; or the line is not genuine and there is a carriage
return in its text, which the notice would echo. The transport refuses to write that, so the receiver
fails, and the message is lost.
-/

namespace SealedChat

/-! ## Control characters in replies -/

namespace PrivateMessage

variable {c : Char} {receiver received : String}

theorem not_mem_of_isControl (hc : Principal.isControl c) {words : String}
    (hw : words.toList.all fun c => !Principal.isControl c) : c ∉ words.toList := by
  intro hm
  have hfree := List.all_eq_true.1 hw c hm
  rw [hc] at hfree
  cases hfree

/-- A name holds no control characters, so an acknowledgment holds none. -/
theorem not_mem_ack (hc : Principal.isControl c) (hr : Principal.IsValid receiver) :
    c ∉ (ack receiver).toList := by
  have hname : c ∉ receiver.toList := hr.not_mem (by simp [Principal.isForbidden, hc])
  have hwith : c ∉ " replied with ".toList := not_mem_of_isControl hc (by decide)
  have hmark : c ∉ ackMark.toList := not_mem_of_isControl hc (by decide)
  have hdot : c ∉ ".".toList := not_mem_of_isControl hc (by decide)
  simp only [ack, String.toList_append, List.mem_append]
  tauto

/-- A notice holds the control characters that have been received. -/
theorem mem_tampered_iff (hc : Principal.isControl c) :
    c ∈ (tampered received).toList ↔ c ∈ received.toList := by
  have hmark : c ∉ tamperedMark.toList := not_mem_of_isControl hc (by decide)
  have hspace : c ∉ " ".toList := not_mem_of_isControl hc (by decide)
  have hcommand : c ∉ command.toList := not_mem_of_isControl hc (by decide)
  simp only [tampered, String.toList_append, String.toList_ofList, List.mem_append]
  cases h : Words.after? command.toList received.toList with
  | none => tauto
  | some rest =>
    rw [Words.after?_eq_some_iff.1 h, List.mem_append]
    cases h' : Words.after? [' '] rest with
    | none =>
      simp only [h', Option.getD_none]
      tauto
    | some rest' =>
      obtain rfl := Words.after?_eq_some_iff.1 h'
      simp only [h', Option.getD_some, List.mem_append]
      have hspace' : c ∉ [' '] := hspace
      tauto

theorem mem_replyFor_iff (hc : Principal.isControl c) (hr : Principal.IsValid receiver)
    (v : Verified) :
    c ∈ (replyFor receiver v).toList ↔ v.isAuthentic = false ∧ c ∈ v.text.toList := by
  cases v with
  | authentic payload => simp [replyFor, Verified.isAuthentic, not_mem_ack hc hr]
  | tampered body =>
    rw [replyFor, mem_tampered_iff hc]
    simp [Verified.isAuthentic, Verified.text, Verified.payload]

end PrivateMessage

namespace Peer

open Dialogue PrivateMessage Tagged

variable {key : IntegrityKey} {receiver : String} {t t' : Transport} {line : Bytes}

/-! ## What is received and what is written -/

/-- The payload of a line is text, like the line. -/
theorem exists_text (hl : IsLine line) (key : IntegrityKey) :
    ∃ text, (Tagged.verify key line).payload = Utf8.encode text ∧ '\n' ∉ text.toList := by
  have hspace : space < 128 := by decide
  have hpayload : Utf8.isValid (Tagged.verify key line).payload ∧
      LineReader.lineFeed ∉ (Tagged.verify key line).payload := by
    rcases payload_verify_cases key line with heq | ⟨word, heq⟩
    · rw [heq]
      exact ⟨hl.isValid, hl.not_mem⟩
    · have hvalid := hl.isValid
      have hfeed := hl.not_mem
      rw [heq] at hvalid hfeed
      refine ⟨(Utf8.isValid_of_append hspace hvalid).2, fun hm => hfeed ?_⟩
      exact List.mem_append_right _ (List.mem_cons_of_mem _ hm)
  obtain ⟨text, htext⟩ := Utf8.isValid_iff.1 hpayload.1
  refine ⟨text, htext, fun hm => hpayload.2 ?_⟩
  rw [htext]
  exact (Utf8.mem_encode_iff (c := '\n') (by decide)).2 hm

theorem isValid_line (key : IntegrityKey) (text : String) :
    Utf8.isValid (Tagged.line key (Utf8.encode text)) := by
  have hspace : Utf8.isValid [space] := by decide
  have htext : Utf8.isValid (Utf8.encode text) := Utf8.isValid_iff.2 ⟨text, rfl⟩
  rw [Tagged.line, List.append_cons]
  exact Utf8.isValid_append (Utf8.isValid_append (Base64.isValid_encodeLine _) hspace) htext

/-- There is a break in a tagged line only if there is one in its text. -/
theorem mem_line_iff {c : Char} (hc : c = '\n' ∨ c = '\r') (text : String) :
    UInt8.ofNat c.toNat ∈ Tagged.line key (Utf8.encode text) ↔ c ∈ text.toList := by
  have hascii : c.toNat < 128 := by rcases hc with rfl | rfl <;> decide
  have hspace : UInt8.ofNat c.toNat ≠ space := by rcases hc with rfl | rfl <;> decide
  have htag : UInt8.ofNat c.toNat ∉ Base64.encodeLine (key.tag (Utf8.encode text)).bytes := by
    intro hm
    have hne := Base64.ne_of_mem_encodeLine hm
    rcases hc with rfl | rfl
    · exact hne.1 rfl
    · exact hne.2 rfl
  rw [Tagged.line, List.mem_append, List.mem_cons, Utf8.mem_encode_iff hascii]
  tauto

/-- A reply to a line is a line. -/
theorem not_mem_reply (key : IntegrityKey) (hr : Principal.IsValid receiver) {v : Verified}
    (hfeed : '\n' ∉ v.text.toList) :
    LineReader.lineFeed ∉ Tagged.line key (Utf8.encode (replyFor receiver v)) := by
  intro hm
  have hm' := (mem_line_iff (c := '\n') (.inl rfl) _).1 hm
  exact hfeed ((mem_replyFor_iff (by decide) hr v).1 hm').2

/-- A reply is written, unless it echoes a carriage return. -/
theorem send_reply (key : IntegrityKey) (hc : t.closed = false) (hb : t.broken = false)
    (hr : Principal.IsValid receiver) {v : Verified} (hfeed : '\n' ∉ v.text.toList) :
    t.send (Tagged.line key (Utf8.encode (replyFor receiver v))) =
      if v.isAuthentic = false ∧ '\r' ∈ v.text.toList then (.error .unsendableBreak, t)
      else (.ok (), { t with
        written := t.written ++
          (t.unwritten ++ [Tagged.line key (Utf8.encode (replyFor receiver v))])
        unwritten := [] }) := by
  have hlf := not_mem_reply key hr hfeed
  have hcr : LineReader.carriageReturn ∈ Tagged.line key (Utf8.encode (replyFor receiver v)) ↔
      v.isAuthentic = false ∧ '\r' ∈ v.text.toList :=
    (mem_line_iff (c := '\r') (.inr rfl) _).trans (mem_replyFor_iff (by decide) hr v)
  rw [Transport.send_of_isValid hc hb (isValid_line key _)]
  simp only [hlf, hcr, false_or]

/-! ## The receiver -/

variable [CipherSuite]

/-- The receiver sends its reply, and keeps the message if that succeeds. -/
theorem advance_answer {limit : Option Duration} {random : RandomStream}
    (hpoll : t.poll = (some (.ok line), t')) {o : Outcome Unit} {u : Transport}
    (hsend : t'.send (Tagged.line key (Utf8.encode (replyFor receiver (Tagged.verify key line)))) =
      (o, u)) :
    (answer key [] receiver limit).advance ⟨t, random⟩ =
      (.done (o.map fun _ => Incoming.ofVerified (Tagged.verify key line), []), ⟨u, random⟩) := by
  rw [answer_line]
  simp only [advance, hpoll, hsend]

/-- **A receiver answers every line but those whose carriage returns it would have to echo.** Any
other line it keeps, whether it is genuine or not, and it writes one reply, behind what is in the
write buffer. -/
theorem answer_advance (key : IntegrityKey) (limit : Option Duration) (random : RandomStream)
    (hr : Principal.IsValid receiver) (hpoll : t.poll = (some (.ok line), t'))
    (hb : t.broken = false) :
    ∃ text, (Tagged.verify key line).payload = Utf8.encode text ∧
      (answer key [] receiver limit).advance ⟨t, random⟩ =
        if (Tagged.verify key line).isAuthentic = false ∧ '\r' ∈ text.toList then
          (.done (.error .unsendableBreak, []), ⟨t', random⟩)
        else
          (.done (.ok ⟨text, (Tagged.verify key line).isAuthentic⟩, []), ⟨{ t' with
            written := t.written ++ (t.unwritten ++
              [Tagged.line key (Utf8.encode (replyFor receiver (Tagged.verify key line)))])
            unwritten := [] }, random⟩) := by
  obtain ⟨hl, hc, hb', hwritten⟩ := Transport.poll_eq_line hpoll
  obtain ⟨text, hpayload, hfeed⟩ := exists_text hl key
  have htext : (Tagged.verify key line).text = text := by
    rw [Verified.text, hpayload, Utf8.decodeLossy_encode]
  rw [← htext] at hfeed
  have hsend := send_reply key hc (hb'.trans hb) hr hfeed
  rw [htext] at hsend
  refine ⟨text, hpayload, ?_⟩
  split_ifs at hsend ⊢ with hecho
  · exact advance_answer hpoll hsend
  · rw [advance_answer hpoll hsend, ← htext, hwritten, (Transport.poll_keeps hpoll).1]
    rfl

omit [CipherSuite] in
/-- What arrives as "hello" is kept as that, and echoed in a notice. -/
theorem answer_advance_of_word : ∃ (suite : CipherSuite) (key : IntegrityKey) (t t' : Transport),
    suite = .between (.zero 32) (.zero 32) ∧
    t = ((Transport.new 64).arrive (Utf8.encode "hello" ++ [LineReader.lineFeed])).2 ∧
    (answer key [] "bob" none).advance ⟨t, ⟨0, none⟩⟩ =
      (.done (.ok ⟨"hello", false⟩, []), ⟨{ t' with
        written := [Tagged.line key (Utf8.encode "!tampered hello")] }, ⟨0, none⟩⟩) := by
  let suite := CipherSuite.between (.zero 32) (.zero 32)
  let key : IntegrityKey := ⟨List.replicate 16 0, by simp⟩
  let line := Utf8.encode "hello"
  let t := ((Transport.new 64).arrive (line ++ [LineReader.lineFeed])).2
  have hchecked : LineReader.checked line = .ok line := by decide
  have hverify : Tagged.verify key line = .tampered line := by
    rw [Tagged.verify, split?_of_not_mem (by decide)]
  have hreply : replyFor "bob" (.tampered line) = "!tampered hello" := by
    have hline : Utf8.decodeLossy line = "hello" := Utf8.decodeLossy_encode _
    rw [replyFor, hline]
    rfl
  obtain ⟨t', hpoll⟩ : ∃ t', t.poll = (some (LineReader.checked line), t') :=
    Transport.poll_arrive (by decide) (by decide) (by decide)
  rw [hchecked] at hpoll
  have hr : Principal.IsValid "bob" := by decide
  obtain ⟨text, htext, hanswer⟩ := answer_advance key none ⟨0, none⟩ hr hpoll rfl
  rw [hverify] at htext hanswer
  obtain rfl : "hello" = text := Utf8.encode_injective htext
  rw [if_neg (by decide), hreply] at hanswer
  have hunwritten : t'.unwritten = [] := (Transport.poll_keeps hpoll).1
  exact ⟨suite, key, t, t', rfl, rfl, Transport.with_unwritten_nil hunwritten _ ▸ hanswer⟩

omit [CipherSuite] in
/-- A carriage return inside a line that is not genuine makes the receiver fail, and nothing is
written. -/
theorem answer_lost : ∃ (suite : CipherSuite) (key : IntegrityKey) (t t' : Transport)
    (line : Bytes), suite = .between (.zero 32) (.zero 32) ∧
    line = Utf8.encode "!msg alice: hi\rthere" ∧
    t = ((Transport.new 64).arrive (line ++ [LineReader.lineFeed])).2 ∧
    t.poll = (some (.ok line), t') ∧ t.broken = false ∧ Principal.IsValid "bob" ∧
    (answer key [] "bob" none).advance ⟨t, ⟨0, none⟩⟩ =
      (.done (.error .unsendableBreak, []), ⟨t', ⟨0, none⟩⟩) ∧ t'.written = [] := by
  let suite := CipherSuite.between (.zero 32) (.zero 32)
  let key : IntegrityKey := ⟨List.replicate 16 0, by simp⟩
  let line := Utf8.encode "!msg alice: hi\rthere"
  have hr : Principal.IsValid "bob" := by decide
  let t := ((Transport.new 64).arrive (line ++ [LineReader.lineFeed])).2
  have hchecked : LineReader.checked line = .ok line := by decide
  have hverify : Tagged.verify key line = .tampered (Utf8.encode "alice: hi\rthere") := by decide
  obtain ⟨t', hpoll⟩ : ∃ t', t.poll = (some (LineReader.checked line), t') :=
    Transport.poll_arrive (by decide) (by decide) (by decide)
  rw [hchecked] at hpoll
  obtain ⟨-, hc, hb, hwritten⟩ := Transport.poll_eq_line hpoll
  have hsend : t'.send (Tagged.line key (Utf8.encode (replyFor "bob" (Tagged.verify key line)))) =
      (.error .unsendableBreak, t') := by
    have hfeed : '\n' ∉ (Tagged.verify key line).text.toList := by
      rw [hverify]
      decide
    have hecho : (Tagged.verify key line).isAuthentic = false ∧
        '\r' ∈ (Tagged.verify key line).text.toList := by
      rw [hverify]
      decide
    rw [send_reply key hc hb hr hfeed, if_pos hecho]
  exact ⟨suite, key, t, t', line, rfl, rfl, rfl, hpoll, rfl, hr,
    advance_answer hpoll hsend, hwritten⟩

end Peer

end SealedChat
