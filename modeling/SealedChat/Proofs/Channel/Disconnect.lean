import SealedChat.Proofs.Channel.Layer
import SealedChat.Proofs.Line
import SealedChat.Proofs.Transport.Verdict

/-!
# Which answers of a channel say that the other side has gone

The layers of a channel never say so (`Channel.lift_eq_disconnect`), so it is the line below that
decides. There a closed or cancelled end and the end of the input are behind such an answer, as they
should be. Two more things are: a whole line that is no text is reported as a failure of the stream,
and the answer after a refusal says that the input is over (`Channel.disconnect_cases`).

What carries the proof is what a transport knows of the answers that it has given
(`Transport.Answered`), whatever else has happened to it meanwhile.
-/

namespace SealedChat

namespace Transport

open LineReader (Refuses)

/-- The answers that a transport has given, the newest first, whatever has happened to it at either
end. -/
inductive Answers (limit : Nat) : List (Outcome Bytes) → Transport → Prop
  | new : Answers limit [] (.new limit)
  | arrive {os : List (Outcome Bytes)} {t : Transport} (b : Bytes) :
      Answers limit os t → Answers limit os (t.arrive b).2
  | endInput {os : List (Outcome Bytes)} {t : Transport} :
      Answers limit os t → Answers limit os t.endInput
  | sever {os : List (Outcome Bytes)} {t : Transport} :
      Answers limit os t → Answers limit os t.sever
  | send {os : List (Outcome Bytes)} {t : Transport} (line : Bytes) :
      Answers limit os t → Answers limit os (t.send line).2
  | carry {os : List (Outcome Bytes)} {t : Transport} :
      Answers limit os t → Answers limit os t.carry.2
  | close {os : List (Outcome Bytes)} {t : Transport} :
      Answers limit os t → Answers limit os t.close
  | cancel {os : List (Outcome Bytes)} {t : Transport} :
      Answers limit os t → Answers limit os t.cancel
  /-- A look that finds no answer, or one. -/
  | look {os : List (Outcome Bytes)} {t t' : Transport} {x : Option (Outcome Bytes)} :
      t.poll = (x, t') → Answers limit os t → Answers limit (x.toList ++ os) t'

variable {os : List (Outcome Bytes)} {t t' : Transport} {limit : Nat}

/-- What a transport knows of the answers that it has given. -/
structure Answered (limit : Nat) (os : List (Outcome Bytes)) (t : Transport) : Prop where
  spent : t.reader.ended = true → t.arrived = [] ∧ t.ended = true
  refused : t.closed = false → t.cancelled = false → t.reader.refused = true →
    ∃ o ∈ os.head?, Refuses o
  orderly : (∀ o ∈ os, ¬Refuses o) → t.reader.Orderly ∧ t.limit = limit

/-- What a transport makes of what it knows, if it is neither closed nor called off. -/
theorem poll_of_open (hc : t.closed = false) (hcancel : t.cancelled = false) :
    t.poll = ((t.reader.poll t.arrived t.ended).1,
      { t with
        reader := (t.reader.poll t.arrived t.ended).2.2
        arrived := (t.reader.poll t.arrived t.ended).2.1 }) := by
  rw [poll, if_neg (by simp [hc]), if_neg (by simp [hcancel])]

/-- An end that is closed or called off answers without a look at what has arrived. -/
theorem poll_of_over (h : t.closed = true ∨ t.cancelled = true) :
    ∃ e, t.poll = (some (.error e), t) ∧ ¬Refuses (.error e) := by
  cases hc : t.closed with
  | true =>
    refine ⟨.connectionClosed, by rw [poll, if_pos hc], LineReader.not_refuses_closed⟩
  | false =>
    have hcancel : t.cancelled = true := h.resolve_left (by simp [hc])
    refine ⟨.shutdown, by rw [poll, if_neg (by simp [hc]), if_pos hcancel], ?_⟩
    rintro ⟨e, he, h | h⟩ <;> (subst h; cases he)

/-- The reader is as good as it was, and so is the rest. -/
theorem Answered.congr (h : Answered limit os t) (hr : t'.reader = t.reader)
    (ha : t'.arrived = t.arrived) (he : t.ended = true → t'.ended = true)
    (hc : t'.closed = false → t.closed = false)
    (hcancel : t'.cancelled = false → t.cancelled = false) : Answered limit os t' where
  spent h' := by
    rw [hr] at h'
    rw [ha]
    exact ⟨(h.spent h').1, he (h.spent h').2⟩
  refused h₁ h₂ := by
    rw [hr]
    exact h.refused (hc h₁) (hcancel h₂)
  orderly := by
    rw [Transport.limit, hr]
    exact h.orderly

/-- **A look at a transport keeps what it knows**, with the answer if there is one. -/
theorem Answered.poll {x : Option (Outcome Bytes)} (h : Answered limit os t)
    (hp : t.poll = (x, t')) : Answered limit (x.toList ++ os) t' := by
  by_cases hopen : t.closed = false ∧ t.cancelled = false
  · rcases hr : t.reader.poll t.arrived t.ended with ⟨x', arrived, reader⟩
    rw [poll_of_open hopen.1 hopen.2, hr] at hp
    cases hp
    obtain ⟨hover, hrefused, -⟩ := LineReader.gone_of_poll h.spent hr
    refine ⟨hover, fun _ _ h' => ?_, fun hall => ?_⟩
    · obtain ⟨o, rfl, ho⟩ := hrefused.1 h'
      exact ⟨o, rfl, ho⟩
    · obtain ⟨ho, hl⟩ := h.orderly fun o hm => hall o (List.mem_append_right _ hm)
      obtain ⟨o', arrived', r', hp, -, hl', ho'⟩ := ho.poll h.spent
      rw [hr] at hp
      cases hp
      refine ⟨ho' fun o hx => hall o ?_, hl'.trans hl⟩
      rw [hx]
      exact List.mem_cons_self
  · obtain ⟨e, he, hrefuse⟩ := poll_of_over (t := t) (by
      rcases Classical.not_and_iff_not_or_not.1 hopen with hc | hc
      · exact .inl (by simpa using hc)
      · exact .inr (by simpa using hc))
    rw [he] at hp
    cases hp
    refine ⟨h.spent, fun hc hcancel => absurd ⟨hc, hcancel⟩ hopen, fun hall => ?_⟩
    exact h.orderly fun o hm => hall o (List.mem_append_right _ hm)

/-- **Whatever happens to it, a transport knows of its answers.** -/
theorem Answers.answered (h : Answers limit os t) : Answered limit os t := by
  induction h with
  | new =>
    refine ⟨fun h => ?_, fun _ _ h => ?_, fun _ => ⟨LineReader.orderly_new limit, rfl⟩⟩
    · cases h
    · cases h
  | @arrive os t b _ ih =>
    cases he : t.ended with
    | true => simpa [Transport.arrive, he] using ih
    | false =>
      rw [Transport.arrive, if_neg (by simp [he])]
      exact ⟨fun h => absurd (ih.spent h).2 (by simp [he]), ih.refused, ih.orderly⟩
  | endInput _ ih => exact ih.congr rfl rfl (fun _ => rfl) id id
  | sever _ ih => exact ih.congr rfl rfl (fun _ => rfl) id id
  | @send os t line _ ih =>
    obtain ⟨unwritten, written, hs⟩ := t.exists_send line
    rw [hs]
    exact ih.congr rfl rfl id id id
  | carry _ ih => exact ih.congr rfl rfl id id id
  | @close os t _ ih =>
    cases hc : t.closed with
    | true =>
      rw [Transport.close, if_pos hc]
      exact ih
    | false =>
      rw [close_of_open hc]
      split_ifs <;> exact ih.congr rfl rfl id (fun h => by cases h) id
  | cancel _ ih => exact ih.congr rfl rfl id id fun h => by cases h
  | look hp _ ih => exact ih.poll hp

end Transport

variable [CipherSuite] {c c' : Channel} {o : Outcome Bytes} {t t' : Transport}
  {wait : Option Duration} {e : ChatError}

/-- A layer that cannot lift what comes up never says that the other side has gone. -/
theorem Layer.lift_eq_error {layer : Layer} {payload : Bytes}
    (h : (layer.lift payload).1 = .error e) : e.isDisconnect = false := by
  cases layer with
  | base64 =>
    rw [lift] at h
    cases hd : Base64.decode? payload with
    | none =>
      rw [hd] at h
      cases h
      rfl
    | some p =>
      rw [hd] at h
      cases h
  | symmetric cipher =>
    rw [lift, SessionCipher.decrypt_eq] at h
    cases hd : SessionCrypt.decrypt cipher.secrets cipher.role.other cipher.received payload with
    | error e' =>
      rw [hd] at h
      cases h
      by_cases hk : cipher.received < SessionCrypt.directionBit
      · rw [SessionCrypt.decrypt_of_lt hk] at hd
        split at hd
        · cases hd
        · cases hd
          rfl
      · rw [SessionCrypt.decrypt_of_le (Nat.not_lt.1 hk)] at hd
        cases hd
        rfl
    | ok p =>
      rw [hd] at h
      cases h
  | asymmetric keys =>
    rw [lift, SealedBox.openWith] at h
    split_ifs at h
    · cases h
      rfl
    · dsimp only at h
      split at h
      · cases h
      · cases h
        rfl
  | integrity key =>
    rw [lift] at h
    cases hv : Tagged.verify key payload with
    | authentic p =>
      rw [hv] at h
      cases h
    | tampered p =>
      rw [hv] at h
      cases h
      rfl

namespace Channel

open LineReader (lineFeed carriageReturn HasLine IsNext Refuses chomp)

/-- **Only the line of a channel says that the other side has gone.** -/
theorem lift_eq_disconnect (h : (lift c o).1 = .error e) (hd : e.isDisconnect = true) :
    o = .error e := by
  induction c generalizing e with
  | nil => exact h
  | cons layer inner ih =>
    rcases hi : lift inner o with ⟨e' | payload, inner'⟩
    · rw [lift, hi] at h
      cases h
      exact ih (by rw [hi]) hd
    · rw [lift_cons_of_ok hi] at h
      rw [Layer.lift_eq_error h] at hd
      cases hd

/-- What a channel receives is what its line answers with, lifted. -/
theorem step_receive {r : Outcome Bytes × Channel}
    (h : Speaker.Step ⟨c.receive wait, t⟩ ⟨.done r, t'⟩) :
    ∃ o, t.poll = (some o, t') ∧ r = lift c o := by
  rw [receive_eq] at h
  generalize hd : (.done r : Dialogue (Outcome Bytes × Channel)) = d at h
  cases h with
  | receive hp =>
    cases hd
    exact ⟨_, hp, rfl⟩
  | look => cases hd

/-- **When a channel says that the other side has gone.** Such an answer comes from an end that is
closed or called off, from the end of the input, after a refusal, or from a whole line that is no
text. As long as no line has been refused, it comes from exactly these: the end of the input with
no line left, and a next line that fits and is no text. -/
theorem disconnect_cases {limit : Nat} {os : List (Outcome Bytes)} (h : t.Answers limit os)
    (hr : Speaker.Step ⟨c.receive wait, t⟩ ⟨.done (.error e, c'), t'⟩) :
    (e.isDisconnect = true → t.closed = true ∨ t.cancelled = true ∨ t.ended = true ∨
      (∃ o ∈ os.head?, Refuses o) ∨
      ∃ line, HasLine t.reader.discarding t.unread line ∧ ¬Utf8.isValid (chomp line)) ∧
    (t.closed = false → t.cancelled = false → (∀ o ∈ os, ¬Refuses o) →
      (e.isDisconnect = true ↔
        (∃ line, IsNext t.ended t.unread line ∧ line.length ≤ limit ∧
          ¬Utf8.isValid (chomp line)) ∨
        t.ended = true ∧ (t.unread = [] ∨ t.unread = [carriageReturn]) ∧
          t.unread.length ≤ limit)) := by
  obtain ⟨o, hp, hlift⟩ := step_receive hr
  have hlift : (lift c o).1 = .error e := congrArg Prod.fst hlift.symm
  have hknown := h.answered
  constructor
  · intro hd
    have ho := lift_eq_disconnect hlift hd
    by_cases hopen : t.closed = false ∧ t.cancelled = false
    · rw [Transport.poll_of_open hopen.1 hopen.2] at hp
      rcases hpoll : t.reader.poll t.arrived t.ended with ⟨x, arrived, reader⟩
      rw [hpoll] at hp
      cases hp
      obtain ⟨-, -, hgone⟩ := LineReader.gone_of_poll hknown.spent hpoll
      rcases hgone e (congrArg some ho) hd with hrefused | hended | hline
      · exact .inr (.inr (.inr (.inl (hknown.refused hopen.1 hopen.2 hrefused))))
      · exact .inr (.inr (.inl hended))
      · exact .inr (.inr (.inr (.inr hline)))
    · rcases Classical.not_and_iff_not_or_not.1 hopen with hc | hc
      · exact .inl (by simpa using hc)
      · exact .inr (.inl (by simpa using hc))
  · intro hc hcancel hall
    obtain ⟨horderly, hlimit⟩ := hknown.orderly hall
    obtain ⟨x, arrived, reader, hpoll, hv, -, -⟩ := horderly.poll hknown.spent
    rw [Transport.poll_of_open hc hcancel, hpoll] at hp
    cases hp
    rw [show t.reader.limit = limit from hlimit] at hv
    refine Iff.trans ⟨fun hd => ⟨e, lift_eq_disconnect hlift hd, hd⟩, ?_⟩ hv.disconnect_iff
    rintro ⟨e', rfl, hd⟩
    rw [lift_error] at hlift
    cases hlift
    exact hd

/-- A byte that no text holds, and a line feed, have arrived. -/
theorem step_of_garbage : ∃ t', Speaker.Step
    ⟨receive none [.base64], ((Transport.new 1024).arrive [255, lineFeed]).2⟩
    ⟨.done (.error .unreadableLine, [.base64]), t'⟩ := by
  have hm : lineFeed ∉ ([255] : Bytes) := by decide
  have hl : ([255] : Bytes).length ≤ 1024 := by decide
  obtain ⟨t', hp⟩ := Transport.poll_arrive hm hl (by decide)
  have hchecked : LineReader.checked [255] = .error .unreadableLine := by decide
  rw [hchecked] at hp
  refine ⟨t', ?_⟩
  rw [receive_eq, ← lift_error [.base64] .unreadableLine]
  exact .receive hp

omit [CipherSuite] in
theorem disconnect_cases_of_garbage : ∃ (suite : CipherSuite) (t t' : Transport),
    suite = .between (.zero 32) (.zero 32) ∧ t.Answers 1024 [] ∧
    Speaker.Step ⟨receive none [.base64], t⟩ ⟨.done (.error .unreadableLine, [.base64]), t'⟩ ∧
    ((∃ line, IsNext t.ended t.unread line ∧ line.length ≤ 1024 ∧ ¬Utf8.isValid (chomp line)) ∨
      t.ended = true ∧ (t.unread = [] ∨ t.unread = [carriageReturn]) ∧ t.unread.length ≤ 1024) := by
  let suite := CipherSuite.between (.zero 32) (.zero 32)
  obtain ⟨t', hstep⟩ := step_of_garbage
  have hanswers : (((Transport.new 1024).arrive [255, lineFeed]).2).Answers 1024 [] :=
    .arrive _ .new
  exact ⟨suite, _, t', rfl, hanswers, hstep,
    ((disconnect_cases hanswers hstep).2 rfl rfl (by simp)).1 rfl⟩

omit [CipherSuite] in
/-- A whole line can have arrived at an end that is open, and the answer to it says that the other
side has gone. -/
theorem disconnect_of_whole_line : ¬∀ [CipherSuite] (limit : Nat) (c c' : Channel)
    (wait : Option Duration) (t t' : Transport) (line rest : Bytes) (e : ChatError),
    t.Answers limit [] → t.closed = false → t.cancelled = false → t.ended = false →
    t.unread = line ++ lineFeed :: rest → lineFeed ∉ line →
    Speaker.Step ⟨c.receive wait, t⟩ ⟨.done (.error e, c'), t'⟩ → e.isDisconnect = false := by
  intro h
  let suite := CipherSuite.between (.zero 32) (.zero 32)
  obtain ⟨t', hstep⟩ := step_of_garbage
  have hdisconnect := h 1024 _ _ none _ t' [255] [] _ (.arrive _ .new) rfl rfl rfl rfl
    (by decide) hstep
  cases hdisconnect

end Channel

end SealedChat
