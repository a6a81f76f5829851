import SealedChat.Config.Validate
import SealedChat.Proofs.Handshake.Course
import SealedChat.Proofs.Handshake.Honest
import SealedChat.Proofs.Transport.Polled

/-!
# Handshake messages fit what carries them

A handshake message travels as one line (`Message.CarriedBy`): in a box, or encrypted as a message of
a session, and then in Base64. Four limits have to go together for this.

* *Names* have at most 64 bytes, so no message has more than 163 (`Message.size_encode_le_maxSize`).
* *Boxes* take at most 512 bytes.
* *Lines.* A box adds 60 bytes, a session 16, and Base64 a third, which makes 300 at most
  (`Message.CarriedBy.isClean`).
* *Settings* without findings allow lines of 1024 bytes (`Settings.le_of_validate`).

So a message that is made is sealed or encrypted, whatever is drawn, and no transport with a limit from
such settings refuses its line, neither where it is written nor where it is read
(`Transport.Accepts`). By the courses of a handshake these are all the lines that either side writes.

Main result: `Handshake.fits_carriers`.
-/

namespace SealedChat

/-! ## Transports -/

/-- No transport with this limit refuses the line. -/
structure Transport.Accepts (limit : Nat) (line : Bytes) : Prop where
  /-- It is written wherever anything can be written, behind what is in the write buffer. -/
  send {t : Transport} (hclosed : t.closed = false) (hbroken : t.broken = false) :
    t.send line =
      (.ok (), { t with written := t.written ++ (t.unwritten ++ [line]), unwritten := [] })
  /-- As long as only a part of it has arrived, the rest is waited for. -/
  wait {t : Transport} {rest : Bytes} (ht : t.IsOpen) (hl : t.limit = limit)
    (hb : t.unread ++ rest = line ++ [LineReader.lineFeed]) (hrest : rest ≠ []) :
    ∃ t', t.poll = (none, t') ∧ t'.IsOpen ∧ t'.limit = limit ∧ t'.unread = t.unread
  /-- Once all of it has arrived it is read, whatever comes behind it, or if nothing does. -/
  read {t : Transport} {rest : Bytes} (hclosed : t.closed = false)
    (hcancelled : t.cancelled = false) (hreader : t.reader.Steady) (hl : t.limit = limit)
    (hb : t.unread = line ++ LineReader.lineFeed :: rest) :
    ∃ t', t.poll = (some (.ok line), t') ∧ t'.reader.Steady ∧ t'.limit = limit ∧ t'.unread = rest

theorem Transport.accepts_of_isClean {limit : Nat} {line : Bytes} (h : IsClean limit line) :
    Accepts limit line := by
  refine ⟨?_, ?_, ?_⟩
  · intro t hclosed hbroken
    rw [send_of_isValid hclosed hbroken h.isValid,
      if_neg (not_or.2 ⟨h.not_mem.1, h.not_mem.2⟩)]
  · intro t rest ht hl hb hrest
    subst hl
    have hframe : t.unread ++ rest = frame [line] := by rw [hb, frame_cons, frame_nil]
    rcases poll_line ht h hframe with ⟨t', -, -, -, -, hnil⟩ |
      ⟨t', hpoll, hopen, hlimit, -, hunread, -⟩
    · exact absurd (List.append_eq_nil_iff.1 hnil).2 hrest
    · exact ⟨t', hpoll, hopen, hlimit, hunread⟩
  · intro t rest hclosed hcancelled hreader hl hb
    subst hl
    obtain ⟨arrived, r, hpoll, hsteady, hlimit, hunread⟩ :=
      LineReader.poll_of_line t.ended hreader h hb
    refine ⟨{ t with reader := r, arrived }, ?_, hsteady, hlimit, hunread⟩
    simp [poll, hclosed, hcancelled, hpoll]

/-! ## Settings -/

theorem firstFinding_eq_nil_iff {findings : List (Bool × String)} :
    firstFinding findings = [] ↔ ∀ f ∈ findings, f.1 = false := by
  simp [firstFinding, Option.toList_eq_nil_iff]

theorem le_of_checkLineLength {n : UInt64} (h : checkLineLength n = []) : 1024 ≤ n.toNat := by
  have hsmall : decide (n < 1024) = false := firstFinding_eq_nil_iff.1 h _ List.mem_cons_self
  rw [decide_eq_false_iff_not, UInt64.lt_iff_toNat_lt] at hsmall
  exact Nat.le_of_not_lt hsmall

/-- Settings without findings allow long enough lines on either side. -/
theorem Settings.le_of_validate {s : Settings} {t : FileTree} (h : s.validate t = []) :
    1024 ≤ s.server.maxLineLength.toNat ∧ 1024 ≤ s.client.maxLineLength.toNat := by
  rw [validate, List.append_eq_nil_iff, List.append_eq_nil_iff, List.append_eq_nil_iff,
    ServerSettings.validate, ClientSettings.validate, List.append_eq_nil_iff] at h
  obtain ⟨⟨⟨⟨-, hserver⟩, hclient⟩, -⟩, -⟩ := h
  exact ⟨le_of_checkLineLength hserver,
    le_of_checkLineLength (List.append_eq_nil_iff.1 hclient).2⟩

namespace Handshake

variable [CipherSuite]

/-! ## Lines with messages -/

namespace Message

variable {m : Message} {line : Bytes}

/-- The line is this message as it travels: in a box for somebody, or encrypted as a message of some
session. -/
inductive CarriedBy (m : Message) : Bytes → Prop where
  | box {recipient : PublicKey} {box : Bytes}
      (h : SealedBox.Seals recipient (Utf8.encode m.encode) box) : CarriedBy m (Base64.encodeLine box)
  | session {secrets : Secrets} {sender : Role} {sequence : Nat} {cipher : Bytes}
      (h : SessionCrypt.encrypt secrets sender sequence (Utf8.encode m.encode) = .ok cipher) :
      CarriedBy m (Base64.encodeLine cipher)

/-- A line with a message has at most 300 bytes, none of which ends a line. -/
theorem CarriedBy.isClean (hbox : CipherSuite.box.Sound) (hsession : CipherSuite.session.Sound)
    (hm : m.IsValid) (h : m.CarriedBy line) {limit : Nat} (hl : 300 ≤ limit) :
    IsClean limit line := by
  have hsize : (Utf8.encode m.encode).length ≤ 163 := size_encode_le_maxSize hm
  cases h with
  | box h =>
    have hlen := h.length_eq hbox
    rw [SealedBox.overhead] at hlen
    exact isClean_encodeLine (by omega)
  | session h =>
    have hfits := ChaChaPoly.fits_of_le (Nat.le_trans hsize (by decide))
    have hlen := SessionCrypt.length_of_encrypt hsession hfits h
    exact isClean_encodeLine (by omega)

/-- A message that all of its carriers take. -/
structure Fits (m : Message) : Prop where
  size_le : Utf8.size m.encode ≤ SealedBox.maxPlaintext
  /-- Nothing but a lack of entropy keeps it from being sealed. -/
  sealed_or {recipient : PublicKey} {answers : List Draw.Answer} {result : Outcome Bytes}
    (h : (SealedBox.sealTo recipient (Utf8.encode m.encode)).run.Runs answers result) :
    (∃ box, result = .ok box) ∨ result = .error .entropyExhausted
  /-- Any two draws that are answered give a box. -/
  exists_box (recipient : PublicKey) (oneTime : Block 32) (nonce : Block 12) :
    ∃ box, (SealedBox.sealTo recipient (Utf8.encode m.encode)).run.Runs
      [⟨32, some oneTime⟩, ⟨12, some nonce⟩] (.ok box)
  /-- It is encrypted while a session has numbers. -/
  exists_cipher (secrets : Secrets) (sender : Role) {sequence : Nat}
    (h : sequence < SessionCrypt.directionBit) :
    ∃ cipher, SessionCrypt.encrypt secrets sender sequence (Utf8.encode m.encode) = .ok cipher
  length_le {line : Bytes} (h : m.CarriedBy line) : line.length ≤ 1024
  not_mem {line : Bytes} (h : m.CarriedBy line) :
    LineReader.lineFeed ∉ line ∧ LineReader.carriageReturn ∉ line
  /-- Nobody whose settings have no finding refuses its line. -/
  accepts {line : Bytes} (h : m.CarriedBy line) {s : Settings} {t : FileTree}
    (hs : s.validate t = []) :
    Transport.Accepts s.server.maxLineLength.toNat line ∧
      Transport.Accepts s.client.maxLineLength.toNat line

theorem IsValid.fits (hm : m.IsValid) (hbox : CipherSuite.box.Sound)
    (hsession : CipherSuite.session.Sound) : m.Fits where
  size_le := size_encode_le hm
  sealed_or h := SealedBox.of_runs_sealTo hbox (size_encode_le hm) h
  exists_box recipient oneTime nonce := by
    obtain ⟨box, hseal, -⟩ :=
      SealedBox.exists_sealWith hbox recipient ⟨oneTime⟩ nonce (size_encode_le hm)
    exact ⟨box, SealedBox.runs_sealTo (size_encode_le hm) hseal⟩
  exists_cipher secrets sender sequence h := by
    have hfits := ChaChaPoly.fits_of_le (Nat.le_trans (size_encode_le_maxSize hm) (by decide))
    obtain ⟨cipher, hcipher, -⟩ :=
      SessionCrypt.exists_encrypt_of_sound hsession secrets sender h hfits
    exact ⟨cipher, hcipher⟩
  length_le h := (h.isClean hbox hsession hm (by decide : 300 ≤ 1024)).length_le
  not_mem h := (h.isClean hbox hsession hm (Nat.le_refl 300)).not_mem
  accepts h _ _ hs := by
    obtain ⟨hserver, hclient⟩ := Settings.le_of_validate hs
    exact ⟨Transport.accepts_of_isClean (h.isClean hbox hsession hm (by omega)),
      Transport.accepts_of_isClean (h.isClean hbox hsession hm (by omega))⟩

end Message

/-! ## What either side writes -/

open Dialogue

variable {keys own : SealingKeys} {identity : String} {limit : Duration} {store : KeyStore}
  {first : Option Duration} {es : List Event} {r : Outcome Secured}

/-- An initiator writes nothing but messages. -/
theorem carried_of_initiate (h : (initiate keys [.base64] identity limit).Runs es r) :
    ∀ line ∈ written es, ∃ m : Message, m.IsValid ∧ m.CarriedBy line := by
  intro line hline
  rcases initiate_course h with hnone |
    ⟨key, c, answers, hello, o, rest, hi, -, rfl, ⟨box, rfl, hbox⟩, hrest⟩
  · rw [hnone] at hline
    cases hline
  · simp only [List.cons_append, written_filled, written_append, written_draws, written_sent,
      List.nil_append, List.mem_cons] at hline
    rcases hline with rfl | hline
    · exact ⟨.authenticate identity c, hi, .box hbox⟩
    · rcases hrest with hnone |
        ⟨reply, confirm, o', tail, cb, secrets, rfl, -, ⟨cipher, rfl, hcipher⟩, htail⟩
      · rw [hnone] at hline
        cases hline
      · simp only [written_received, written_sent, htail, List.mem_singleton] at hline
        subst hline
        exact ⟨.confirm cb, trivial, .session hcipher⟩

/-- A responder writes nothing but a message. -/
theorem carried_of_respond (h : (respond own [.base64] store first limit).Runs es r) :
    ∀ line ∈ written es, ∃ m : Message, m.IsValid ∧ m.CarriedBy line := by
  intro line hline
  rcases respond_course h with ⟨hnone, -⟩ | ⟨hello, name, ca, key, cb, secrets, answers, reply, o,
    rest, rfl, -, -, -, ⟨box, rfl, hbox⟩, hrest, -⟩
  · rw [hnone] at hline
    cases hline
  · simp only [written_received, written_filled, written_append, written_draws, written_sent, hrest,
      List.nil_append, List.mem_singleton] at hline
    subst hline
    exact ⟨.accept ca cb secrets, trivial, .box hbox⟩

/-! ## All messages -/

/-- **Handshake messages fit what carries them.** Whatever name is accepted, and whatever the
challenges and the secrets are: a message is short enough to be sealed and to be encrypted, whatever is
drawn, and the line with it has at most 1024 bytes, none of which ends a line, so it is written and read
under every limit in settings without findings. And in no course of a handshake does either side write
any other line. -/
theorem fits_carriers (hbox : CipherSuite.box = ChaChaPoly.short)
    (hsession : CipherSuite.session = ChaChaPoly.long) :
    (∀ name c, Principal.check name = .ok () → (Message.authenticate name c).Fits) ∧
    (∀ ca cb secrets, (Message.accept ca cb secrets).Fits) ∧
    (∀ c, (Message.confirm c).Fits) ∧
    (∀ keys identity limit es r, (initiate keys [.base64] identity limit).Runs es r →
      ∀ line ∈ written es, ∃ m : Message, m.Fits ∧ m.CarriedBy line) ∧
    ∀ own store first limit es r, (respond own [.base64] store first limit).Runs es r →
      ∀ line ∈ written es, ∃ m : Message, m.Fits ∧ m.CarriedBy line := by
  have hboxes : CipherSuite.box.Sound := hbox ▸ ChaChaPoly.sound_short
  have hsessions : CipherSuite.session.Sound := hsession ▸ ChaChaPoly.sound_long
  have hfits : ∀ m : Message, m.IsValid → m.Fits := fun m hm => hm.fits hboxes hsessions
  refine ⟨?_, ?_, ?_, ?_, ?_⟩
  · intro name c hname
    exact hfits _ (Principal.check_eq_ok_iff.1 hname)
  · intro ca cb secrets
    exact hfits _ trivial
  · intro c
    exact hfits _ trivial
  · intro keys identity limit es r h line hline
    obtain ⟨m, hm, hcarried⟩ := carried_of_initiate h line hline
    exact ⟨m, hfits m hm, hcarried⟩
  · intro own store first limit es r h line hline
    obtain ⟨m, hm, hcarried⟩ := carried_of_respond h line hline
    exact ⟨m, hfits m hm, hcarried⟩

omit [CipherSuite] in
/-- A greeting under one of the longest names, of letters of two bytes, in a box: the default settings
let its line through. -/
theorem fits_carriers_of_longest :
    ∃ (suite : CipherSuite) (m : Message) (line : Bytes) (t : Transport), suite = .standard ∧
      m = .authenticate (String.ofList (List.replicate 32 '\u00e4')) ⟨.zero 32⟩ ∧
      Utf8.size m.encode = 123 ∧ m.CarriedBy line ∧ line.length ≤ 1024 ∧
      ((Transport.new 65536).send line).1 = .ok () ∧
      ((Transport.new 65536).arrive (line ++ [LineReader.lineFeed])).2.poll = (some (.ok line), t) := by
  let suite := CipherSuite.standard
  let name := String.ofList (List.replicate 32 '\u00e4')
  let m : Message := .authenticate name ⟨.zero 32⟩
  have hname : Principal.check name = .ok () := by decide
  have hfits : m.Fits := (fits_carriers rfl rfl).1 name ⟨.zero 32⟩ hname
  obtain ⟨box, hbox⟩ := hfits.exists_box ⟨.zero 32⟩ (.zero 32) (.zero 12)
  have hcarried : m.CarriedBy (Base64.encodeLine box) := .box ⟨_, hbox⟩
  have hdefaults : Settings.validate {} (.bare ["work"]) = [] := by decide +kernel
  obtain ⟨hserver, -⟩ := hfits.accepts hcarried hdefaults
  let t : Transport := ((Transport.new 65536).arrive
    (Base64.encodeLine box ++ [LineReader.lineFeed])).2
  have hunread : t.unread = Base64.encodeLine box ++ LineReader.lineFeed :: [] := rfl
  obtain ⟨t', hpoll, -⟩ := hserver.read rfl rfl (LineReader.steady_new 65536) rfl hunread
  refine ⟨suite, m, Base64.encodeLine box, t', rfl, rfl, ?_, hcarried, hfits.length_le hcarried,
    ?_, hpoll⟩
  · exact (Message.size_encode_authenticate name _).trans (by decide)
  · rw [hserver.send rfl rfl]

end Handshake

end SealedChat
