import SealedChat.Proofs.Cipher.Suite
import SealedChat.Proofs.Dialogue.Converse
import SealedChat.SealedBox

/-!
# Opening sealed boxes

A box is opened by whoever holds the key that it was sealed to, if key agreement and encryption keep
their laws. Its length depends on that of the message alone.
-/

namespace SealedChat

theorem Block.ofPrefix_append {n : Nat} (b : Block n) (rest : Bytes) :
    Block.ofPrefix n (b.bytes ++ rest) = b := by
  rw [← Block.bytes_inj]
  simp only [ofPrefix, List.append_assoc]
  exact List.take_left' b.length_bytes

namespace SealedBox

variable [CipherSuite]

/-- The box that comes of a one-time key and a nonce. -/
def sealWith (recipient : PublicKey) (plain : Bytes) (oneTime : PrivateKey) (nonce : Block 12) :
    Outcome Bytes :=
  match CipherSuite.box.encrypt (key (oneTime.shared recipient) oneTime.publicKey recipient) nonce
      plain with
  | some body => .ok (oneTime.publicKey.block.bytes ++ nonce.bytes ++ body)
  | none => .error .sealFailed

/-- Sealing a message that is not too long draws a one-time key and a nonce. -/
theorem sealTo_eq (recipient : PublicKey) {plain : Bytes} (h : plain.length ≤ maxPlaintext) :
    (sealTo recipient plain).run = .fill 32 fun
      | none => .done (.error .entropyExhausted)
      | some k => .fill 12 fun
        | none => .done (.error .entropyExhausted)
        | some nonce => .done (sealWith recipient plain ⟨k⟩ nonce) := by
  rw [sealTo, if_neg (by omega)]
  refine congrArg (Draw.fill 32) (funext fun o => ?_)
  cases o with
  | none => rfl
  | some k =>
    refine congrArg (Draw.fill 12) (funext fun o => ?_)
    cases o with
    | none => rfl
    | some nonce =>
      unfold sealWith
      dsimp only
      cases h : CipherSuite.box.encrypt (key (PrivateKey.shared ⟨k⟩ recipient)
        (PrivateKey.publicKey ⟨k⟩) recipient) nonce plain <;>
      · simp only [Draw.bind, ExceptT.bindCont, h]
        rfl

/-- A message that is too long is refused before anything is drawn. -/
theorem sealTo_of_lt (recipient : PublicKey) {plain : Bytes} (h : maxPlaintext < plain.length) :
    (sealTo recipient plain).run = .done (.error (.oversizedPayload plain.length)) := by
  rw [sealTo, if_pos h]
  rfl

/-- How the sealing of a text to a key can go, and with what answers to its draws. -/
inductive Sealing (recipient : PublicKey) (plain : Bytes) :
    List Draw.Answer → Outcome Bytes → Prop where
  | oversized (h : maxPlaintext < plain.length) :
      Sealing recipient plain [] (.error (.oversizedPayload plain.length))
  | noKey (h : plain.length ≤ maxPlaintext) :
      Sealing recipient plain [⟨32, none⟩] (.error .entropyExhausted)
  | noNonce (h : plain.length ≤ maxPlaintext) (oneTime : Block 32) :
      Sealing recipient plain [⟨32, some oneTime⟩, ⟨12, none⟩] (.error .entropyExhausted)
  | drawn (h : plain.length ≤ maxPlaintext) (oneTime : Block 32) (nonce : Block 12) :
      Sealing recipient plain [⟨32, some oneTime⟩, ⟨12, some nonce⟩]
        (sealWith recipient plain ⟨oneTime⟩ nonce)

/-- Sealing goes in these ways and in no other. -/
theorem runs_sealTo_iff {recipient : PublicKey} {plain : Bytes} {answers : List Draw.Answer}
    {result : Outcome Bytes} :
    (sealTo recipient plain).run.Runs answers result ↔
      Sealing recipient plain answers result := by
  constructor
  · intro h
    by_cases hlen : plain.length ≤ maxPlaintext
    · rw [sealTo_eq _ hlen] at h
      obtain ⟨_ | oneTime, _, rfl, hkey⟩ := Draw.runs_fill_iff.1 h
      · obtain ⟨rfl, rfl⟩ := Draw.runs_done_iff.1 hkey
        exact .noKey hlen
      obtain ⟨_ | nonce, _, rfl, hnonce⟩ := Draw.runs_fill_iff.1 hkey
      · obtain ⟨rfl, rfl⟩ := Draw.runs_done_iff.1 hnonce
        exact .noNonce hlen oneTime
      · obtain ⟨rfl, rfl⟩ := Draw.runs_done_iff.1 hnonce
        exact .drawn hlen oneTime nonce
    · rw [sealTo_of_lt _ (Nat.lt_of_not_le hlen)] at h
      obtain ⟨rfl, rfl⟩ := Draw.runs_done_iff.1 h
      exact .oversized (Nat.lt_of_not_le hlen)
  · intro h
    cases h with
    | oversized h =>
      rw [sealTo_of_lt _ h]
      exact .done _
    | noKey h =>
      rw [sealTo_eq _ h]
      exact .fill none (.done _)
    | noNonce h oneTime =>
      rw [sealTo_eq _ h]
      exact .fill (some oneTime) (.fill none (.done _))
    | drawn h oneTime nonce =>
      rw [sealTo_eq _ h]
      exact .fill (some oneTime) (.fill (some nonce) (.done _))

variable {recipient : PublicKey} {own oneTime : PrivateKey} {nonce : Block 12} {plain box : Bytes}

/-- Sealing succeeds with both draws. -/
theorem eq_of_runs_sealTo {answers : List Draw.Answer}
    (h : (sealTo recipient plain).run.Runs answers (.ok box)) :
    plain.length ≤ maxPlaintext ∧ ∃ (oneTime : Block 32) (nonce : Block 12),
      answers = [⟨32, some oneTime⟩, ⟨12, some nonce⟩] ∧
      sealWith recipient plain ⟨oneTime⟩ nonce = .ok box := by
  generalize hresult : Except.ok box = result at h
  cases runs_sealTo_iff.1 h with
  | oversized _ => cases hresult
  | noKey _ => cases hresult
  | noNonce _ _ => cases hresult
  | drawn hlen oneTime nonce => exact ⟨hlen, oneTime, nonce, rfl, rfl⟩

/-- The parts of a box are found where they were put. -/
theorem openWith_append (own : PrivateKey) (oneTime : PublicKey) (nonce : Block 12) {body : Bytes}
    (hb : 16 ≤ body.length) :
    openWith own (oneTime.block.bytes ++ nonce.bytes ++ body) =
      (CipherSuite.box.decrypt (key (own.shared oneTime) oneTime own.publicKey) nonce body).elim
        (.error .openFailed) .ok := by
  have hk := oneTime.block.length_bytes
  have hn := nonce.length_bytes
  have hlen : ¬(oneTime.block.bytes ++ nonce.bytes ++ body).length < overhead := by
    simp only [List.length_append, hk, hn, overhead]
    omega
  have hdrop : (oneTime.block.bytes ++ (nonce.bytes ++ body)).drop 32 = nonce.bytes ++ body :=
    List.drop_left' hk
  have hdrop' : (oneTime.block.bytes ++ nonce.bytes ++ body).drop 44 = body :=
    List.drop_left' (by rw [List.length_append, hk, hn])
  have hblock : Block.ofPrefix 32 (oneTime.block.bytes ++ nonce.bytes ++ body) = oneTime.block := by
    rw [List.append_assoc, Block.ofPrefix_append]
  have hfirst : (⟨.ofPrefix 32 (oneTime.block.bytes ++ nonce.bytes ++ body)⟩ : PublicKey) =
      oneTime := congrArg PublicKey.mk hblock
  have hsecond : Block.ofPrefix 12 ((oneTime.block.bytes ++ nonce.bytes ++ body).drop 32) =
      nonce := by rw [List.append_assoc, hdrop, Block.ofPrefix_append]
  simp only [openWith, if_neg hlen, hfirst, hsecond, hdrop']
  cases CipherSuite.box.decrypt (key (own.shared oneTime) oneTime own.publicKey) nonce body <;> rfl

omit [CipherSuite] in
/-- Bytes that are long enough for a box have its parts. -/
theorem exists_parts (h : overhead ≤ box.length) :
    ∃ (oneTime : PublicKey) (nonce : Block 12) (body : Bytes),
      box = oneTime.block.bytes ++ nonce.bytes ++ body ∧ 16 ≤ body.length := by
  rw [overhead] at h
  have hk : (box.take 32).length = 32 := by
    rw [List.length_take]
    omega
  have hn : ((box.drop 32).take 12).length = 12 := by
    rw [List.length_take, List.length_drop]
    omega
  refine ⟨⟨⟨box.take 32, hk⟩⟩, ⟨(box.drop 32).take 12, hn⟩, (box.drop 32).drop 12, ?_, ?_⟩
  · rw [List.append_assoc, List.take_append_drop, List.take_append_drop]
  · rw [List.length_drop, List.length_drop]
    omega

theorem openWith_of_lt (own : PrivateKey) (h : box.length < overhead) :
    openWith own box = .error .sealedTooShort := if_pos h

/-- What opens as a box is not short. -/
theorem overhead_le_length (h : openWith own box = .ok plain) : overhead ≤ box.length := by
  by_cases hlen : overhead ≤ box.length
  · exact hlen
  · rw [openWith_of_lt own (Nat.lt_of_not_le hlen)] at h
    cases h

theorem exists_sealWith (hs : CipherSuite.box.Sound) (recipient : PublicKey) (oneTime : PrivateKey)
    (nonce : Block 12) (h : plain.length ≤ maxPlaintext) :
    ∃ box, sealWith recipient plain oneTime nonce = .ok box ∧
      box.length = plain.length + overhead := by
  have hfits : ChaChaPoly.fits plain.length :=
    ChaChaPoly.fits_of_le (Nat.le_trans h (by decide))
  obtain ⟨body, hbody, hlen⟩ := hs.exists_encrypt
    (key (oneTime.shared recipient) oneTime.publicKey recipient) nonce plain hfits
  refine ⟨oneTime.publicKey.block.bytes ++ nonce.bytes ++ body, by rw [sealWith, hbody], ?_⟩
  simp only [List.length_append, Block.length_bytes, hlen, overhead]
  omega

theorem length_of_sealWith (hs : CipherSuite.box.Sound) (h : plain.length ≤ maxPlaintext)
    (hbox : sealWith recipient plain oneTime nonce = .ok box) :
    box.length = plain.length + overhead := by
  obtain ⟨box', hbox', hlen⟩ := exists_sealWith hs recipient oneTime nonce h
  obtain rfl : box = box' := Except.ok.inj (hbox.symm.trans hbox')
  exact hlen

/-- A message that is not too long is sealed, unless there is no entropy. -/
theorem of_runs_sealTo (hs : CipherSuite.box.Sound) {answers : List Draw.Answer}
    {result : Outcome Bytes} (hlen : plain.length ≤ maxPlaintext)
    (h : (sealTo recipient plain).run.Runs answers result) :
    (∃ box, result = .ok box) ∨ result = .error .entropyExhausted := by
  cases runs_sealTo_iff.1 h with
  | oversized hlong => exact absurd hlen (Nat.not_le.2 hlong)
  | noKey => exact .inr rfl
  | noNonce => exact .inr rfl
  | drawn _ oneTime nonce =>
    obtain ⟨box, hbox, -⟩ := exists_sealWith hs recipient ⟨oneTime⟩ nonce hlen
    exact .inl ⟨box, hbox⟩

/-- A box opens if the recipient's key and the one-time key agree. -/
theorem openWith_of_sealWith (hs : CipherSuite.box.Sound)
    (hagree : own.shared oneTime.publicKey = oneTime.shared own.publicKey)
    (hlen : overhead ≤ box.length) (h : sealWith own.publicKey plain oneTime nonce = .ok box) :
    openWith own box = .ok plain := by
  rw [sealWith] at h
  split at h
  next body hbody =>
    obtain rfl := Except.ok.inj h
    have hb : 16 ≤ body.length := by
      simp only [List.length_append, Block.length_bytes, overhead] at hlen
      omega
    rw [openWith_append _ _ _ hb, hagree, hs.faithful hbody, Option.elim_some]
  · cases h

theorem openWith_sealWith_of_agrees (hs : CipherSuite.box.Sound)
    (hagree : own.shared oneTime.publicKey = oneTime.shared own.publicKey) (nonce : Block 12)
    (h : plain.length ≤ maxPlaintext) :
    ∃ box, sealWith own.publicKey plain oneTime nonce = .ok box ∧ openWith own box = .ok plain ∧
      box.length = plain.length + overhead := by
  obtain ⟨box, hseal, hlen⟩ := exists_sealWith hs own.publicKey oneTime nonce h
  exact ⟨box, hseal, openWith_of_sealWith hs hagree (by omega) hseal, hlen⟩

/-- **A sealed box opens.** -/
theorem openWith_sealWith (hs : CipherSuite.Lawful) (h : plain.length ≤ maxPlaintext) :
    ∃ box, sealWith own.publicKey plain oneTime nonce = .ok box ∧ openWith own box = .ok plain ∧
      box.length = plain.length + overhead :=
  openWith_sealWith_of_agrees hs.box (hs.agrees _ _) nonce h

/-- A box comes of drawing the one-time key and the nonce. -/
theorem runs_sealTo (h : plain.length ≤ maxPlaintext)
    (hb : sealWith recipient plain oneTime nonce = .ok box) :
    (sealTo recipient plain).run.Runs [⟨32, some oneTime.block⟩, ⟨12, some nonce⟩] (.ok box) := by
  rw [← hb]
  exact runs_sealTo_iff.2 (.drawn h oneTime.block nonce)

/-- Whatever is drawn, sealing gives a box that opens. -/
theorem always_sealTo (hs : CipherSuite.Lawful) (own : PrivateKey)
    (h : plain.length ≤ maxPlaintext) :
    (sealTo own.publicKey plain).run.Always fun o => ∃ box, o = .ok box ∧
      openWith own box = .ok plain ∧ box.length = plain.length + overhead := by
  rw [sealTo_eq _ h]
  intro k nonce
  exact openWith_sealWith hs h

/-! ## Boxes of any draws -/

/-- The box may come of sealing the text to the key. -/
def Seals (recipient : PublicKey) (plain box : Bytes) : Prop :=
  ∃ answers, (sealTo recipient plain).run.Runs answers (.ok box)

theorem Seals.length_eq (hs : CipherSuite.box.Sound) (h : Seals recipient plain box) :
    box.length = plain.length + overhead := by
  obtain ⟨answers, h⟩ := h
  obtain ⟨hlen, oneTime, nonce, -, hbox⟩ := eq_of_runs_sealTo h
  exact length_of_sealWith hs hlen hbox

/-- A box opens for whoever it was sealed to. -/
theorem Seals.openWith (hs : CipherSuite.Lawful) (h : Seals own.publicKey plain box) :
    openWith own box = .ok plain := by
  have hlength := h.length_eq hs.box
  obtain ⟨answers, h⟩ := h
  obtain ⟨-, oneTime, nonce, -, hbox⟩ := eq_of_runs_sealTo h
  exact openWith_of_sealWith hs.box (hs.agrees _ _) (by omega) hbox

/-- A message that is not too long can be sealed. -/
theorem exists_seals (hs : CipherSuite.Lawful) (own : PrivateKey) (h : plain.length ≤ maxPlaintext) :
    ∃ box, Seals own.publicKey plain box := by
  obtain ⟨box, hbox, -⟩ := exists_sealWith hs.box own.publicKey ⟨.zero 32⟩ (.zero 12) h
  exact ⟨box, _, runs_sealTo h hbox⟩

end SealedBox

end SealedChat
