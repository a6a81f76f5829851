import SealedChat.Proofs.Channel.Converse
import SealedChat.Proofs.Dialogue.Lines
import SealedChat.Session

/-!
# Traffic of a session

What one end does on its line to send a payload, or to receive one. Sending puts out the next message
of the session, or nothing (`runs_send_cases`). Receiving takes one answer of the line, and moves on
only if that is the next message of the other end (`runs_receive_cases`). While nobody is logged in,
nothing is sent (`runs_send_refused`).
-/

namespace SealedChat

variable [CipherSuite]

/-- A line is a message with one payload. -/
theorem Enciphers.unique {secrets : Secrets} {sender : Role} {sequence : Nat}
    {payload payload' line : Bytes} (h : Enciphers secrets sender sequence payload line)
    (h' : Enciphers secrets sender sequence payload' line) : payload = payload' := by
  obtain ⟨c, rfl, hc⟩ := h
  obtain ⟨c', hline, hc'⟩ := h'
  obtain rfl : c = c' := Base64.encodeLine_injective hline
  exact Except.ok.inj (hc.symm.trans hc')

namespace Session

open Dialogue

variable {s s' : Session} {cipher : SessionCipher} {identity : String} {payload line : Bytes}
  {wait : Option Duration} {es : List Event}

/-! ## Somebody is logged in -/

theorem send_enter (c : Bytes) (h : cipher.encrypt payload =
      (.ok c, { cipher with sent := cipher.sent + 1 })) :
    (s.enter ⟨cipher, [.base64], identity⟩).send payload = .send (Base64.encodeLine c) fun o =>
      .done (o, s.enter ⟨{ cipher with sent := cipher.sent + 1 }, [.base64], identity⟩) := by
  rw [send, enter]
  dsimp only
  rw [Channel.send, h]
  rfl

/-- The next message is put out, or there is none and nothing has changed. -/
theorem runs_send_cases (hs : CipherSuite.Lawful) {o : Outcome Unit}
    (h : ((s.enter ⟨cipher, [.base64], identity⟩).send payload).Runs es (o, s')) :
    (es = [] ∧ (∃ e, o = .error e) ∧ s' = s.enter ⟨cipher, [.base64], identity⟩) ∨
    ∃ line, es = [.sent line o] ∧
      Enciphers cipher.secrets cipher.role cipher.sent payload line ∧
      s' = s.enter ⟨{ cipher with sent := cipher.sent + 1 }, [.base64], identity⟩ := by
  rcases cipher.encrypt_cases payload with ⟨c, hc, heq⟩ | ⟨e, heq⟩
  · right
    rw [send_enter c heq] at h
    obtain ⟨o', rest, rfl, h₁⟩ := runs_send_iff.1 h
    obtain ⟨rfl, heq⟩ := runs_done_iff.1 h₁
    obtain ⟨rfl, rfl⟩ := Prod.mk.inj heq
    exact ⟨_, rfl, ⟨c, rfl, SessionCrypt.decrypt_of_encrypt hs hc⟩, rfl⟩
  · left
    rw [send, enter] at h
    dsimp only at h
    rw [Channel.send, heq] at h
    obtain ⟨rfl, heq⟩ := runs_done_iff.1 h
    obtain ⟨rfl, rfl⟩ := Prod.mk.inj heq
    exact ⟨rfl, ⟨e, rfl⟩, rfl⟩

theorem receive_enter : (s.enter ⟨cipher, [.base64], identity⟩).receive wait =
    .receive wait fun a => match Channel.unword a with
      | .ok c => .done ((cipher.decrypt c).1,
          s.enter ⟨(cipher.decrypt c).2, [.base64], identity⟩)
      | .error e => .done (.error e, s.enter ⟨cipher, [.base64], identity⟩) := by
  rw [receive, enter]
  dsimp only
  rw [Channel.receive, Channel.receive_base64]
  refine congrArg (Dialogue.receive wait) (funext fun a => ?_)
  cases h : Channel.unword a with
  | error e =>
    simp only [Dialogue.bind, h]
    rfl
  | ok c =>
    simp only [Dialogue.bind, h]
    rfl

/-- The next message of the other end is received, or there is another answer and nothing has
changed. -/
theorem runs_receive_cases {o : Outcome Bytes}
    (h : ((s.enter ⟨cipher, [.base64], identity⟩).receive wait).Runs es (o, s')) :
    ∃ a, es = [.received wait a] ∧
      ((∃ line payload, a = .ok line ∧
        Enciphers cipher.secrets cipher.role.other cipher.received payload line ∧ o = .ok payload ∧
        s' = s.enter ⟨{ cipher with received := cipher.received + 1 }, [.base64], identity⟩) ∨
      (∃ e, o = .error e) ∧ s' = s.enter ⟨cipher, [.base64], identity⟩ ∧
        ∀ line payload, a = .ok line →
          ¬Enciphers cipher.secrets cipher.role.other cipher.received payload line) := by
  rw [receive_enter] at h
  obtain ⟨a, rest, rfl, h₁⟩ := runs_receive_iff.1 h
  cases hu : Channel.unword a with
  | error e =>
    rw [hu] at h₁
    obtain ⟨rfl, heq⟩ := runs_done_iff.1 h₁
    obtain ⟨rfl, rfl⟩ := Prod.mk.inj heq
    refine ⟨a, rfl, .inr ⟨⟨e, rfl⟩, rfl, ?_⟩⟩
    rintro _ payload rfl ⟨c, rfl, -⟩
    rw [Channel.unword_eq_ok_iff.2 rfl] at hu
    cases hu
  | ok c =>
    rw [hu] at h₁
    obtain ⟨rfl, heq⟩ := runs_done_iff.1 h₁
    obtain ⟨rfl, rfl⟩ := Prod.mk.inj heq
    obtain rfl := Channel.unword_eq_ok_iff.1 hu
    refine ⟨_, rfl, ?_⟩
    rcases cipher.decrypt_cases c with ⟨plain, hp, heq⟩ | ⟨e, heq⟩
    · rw [heq]
      exact .inl ⟨_, plain, rfl, ⟨c, rfl, hp⟩, rfl, rfl⟩
    · rw [heq]
      refine .inr ⟨⟨e, rfl⟩, rfl, ?_⟩
      rintro line payload hline ⟨c', rfl, hc'⟩
      obtain rfl : c = c' := Base64.encodeLine_injective (Except.ok.inj hline)
      rw [SessionCipher.decrypt_of_ok hc'] at heq
      cases heq

/-! ## Such traffic is possible -/

/-- A payload that is not too long can be put out, whatever the line says to it. -/
theorem exists_runs_send (hs : CipherSuite.Lawful) (hk : cipher.sent < SessionCrypt.directionBit)
    (hp : ChaChaPoly.fits payload.length) : ∃ line,
      Enciphers cipher.secrets cipher.role cipher.sent payload line ∧
      line.length = 4 * ((payload.length + 18) / 3) ∧
      ∀ (s : Session) (identity : String) (o : Outcome Unit),
        ((s.enter ⟨cipher, [.base64], identity⟩).send payload).Runs [.sent line o]
          (o, s.enter ⟨{ cipher with sent := cipher.sent + 1 }, [.base64], identity⟩) := by
  obtain ⟨c, hc, hdec, hlen⟩ := SessionCrypt.exists_encrypt hs hk hp
  refine ⟨Base64.encodeLine c, ⟨c, rfl, hdec⟩, ?_, fun s identity o => ?_⟩
  · rw [Base64.length_encodeLine, hlen]
  · rw [send_enter c (SessionCipher.encrypt_of_ok hc)]
    exact .send o (.done _)

theorem runs_receive_ok
    (h : Enciphers cipher.secrets cipher.role.other cipher.received payload line) :
    ((s.enter ⟨cipher, [.base64], identity⟩).receive wait).Runs [.received wait (.ok line)]
      (.ok payload, s.enter ⟨{ cipher with received := cipher.received + 1 }, [.base64],
        identity⟩) := by
  obtain ⟨c, rfl, hc⟩ := h
  rw [receive_enter]
  refine .receive _ ?_
  rw [Channel.unword_eq_ok_iff.2 rfl]
  dsimp only
  rw [SessionCipher.decrypt_of_ok hc]
  exact .done _

theorem runs_receive_error (e : ChatError) :
    ((s.enter ⟨cipher, [.base64], identity⟩).receive wait).Runs [.received wait (.error e)]
      (.error e, s.enter ⟨cipher, [.base64], identity⟩) := by
  rw [receive_enter]
  exact .receive _ (.done _)

/-! ## Nobody is logged in -/

theorem runs_send_refused (hn : s.identity = none) {o : Outcome Unit}
    (h : (s.send payload).Runs es (o, s')) : es = [] ∧ o = .error s.refusal ∧ s' = s := by
  unfold send at h
  split at h
  next hstage => simp [identity, hstage] at hn
  next =>
    obtain ⟨rfl, heq⟩ := runs_done_iff.1 h
    obtain ⟨rfl, rfl⟩ := Prod.mk.inj heq
    exact ⟨rfl, rfl, rfl⟩

end Session

end SealedChat
