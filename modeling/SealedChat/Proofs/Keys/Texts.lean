import SealedChat.Keys.File
import SealedChat.Keys.Material
import SealedChat.Proofs.Base64
import SealedChat.Proofs.Bytes
import SealedChat.Proofs.Files.Tree
import SealedChat.Proofs.Text.Blank

/-!
# Keys and material have one text each

What a handshake exchanges, and the keys that are kept in files, are byte strings of certain lengths
that are written in Base64. There are three readers of such texts, with their own rules for blanks and
for lengths, but each is canonical in one sense (`Canonical`): what it looks at of a text, which is
all of it or what is between the blanks around it, is either the text of a value, and then read as
that value, or it spells bytes of a wrong length, and then the refusal says how many, or it is not
Base64. All three come from one lemma about decoding and checking (`canonical_of_check`).

A key file is read as a text, so it holds a key just when that is the key's own text between blanks
(`Filed`), and a saved key survives whatever blanks are put around it (`Reloads`).

The curve takes some bits of a private key for others (`X25519.clamped`); a key text keeps them all.

Main result: `texts_canonical`.
-/

namespace SealedChat

/-! ## Readers of texts -/

/-- A type of values that are written in Base64, and a reader that looks at the `core` of a text. The
values are the byte strings with lengths that fit; others are refused by their length. -/
structure Canonical {α : Type} (core : String → String) (bytes : α → Bytes) (fits : Nat → Prop)
    (refusal : Nat → ChatError) (write : α → String) (read : String → Outcome α) : Prop where
  write_eq (v : α) : write v = Base64.encode (bytes v)
  injective : Function.Injective bytes
  exists_iff {b : Bytes} : (∃ v, bytes v = b) ↔ fits b.length
  /-- A text is read as a value just when what is looked at is the text of that value. -/
  ok_iff {text : String} {v : α} : read text = .ok v ↔ core text = write v
  refused {text : String} {b : Bytes} (h : core text = Base64.encode b) (hb : ¬fits b.length) :
    read text = .error (refusal b.length)
  malformed_iff {text : String} :
    read text = .error .malformedBase64 ↔ ∀ b, core text ≠ Base64.encode b

section

variable {α β : Type} {core : String → String} {bytes : α → Bytes} {fits : Nat → Prop}
  {refusal : Nat → ChatError} {write : α → String} {read : String → Outcome α}

theorem Canonical.write_injective (h : Canonical core bytes fits refusal write read) :
    Function.Injective write := by
  intro v v' heq
  rw [h.write_eq, h.write_eq] at heq
  exact h.injective (Base64.encode_injective heq)

/-- There are no blanks in Base64. -/
theorem Canonical.not_isBlank (h : Canonical core bytes fits refusal write read) (v : α) {c : Char}
    (hc : c ∈ (write v).toList) : ¬isBlank c := by
  rw [h.write_eq, Base64.encode, String.toList_ofList] at hc
  exact (Base64.isSymbol_of_mem hc).not_isBlank

/-- **Decoding and then checking is canonical** if the check asks for the length. -/
theorem canonical_of_check (check : Bytes → Outcome α)
    (hread : ∀ text, read text = match Base64.decodeText? (core text) with
      | none => .error .malformedBase64
      | some b => check b)
    (hwrite : ∀ v, write v = Base64.encode (bytes v))
    (hinj : Function.Injective bytes)
    (hfits : ∀ {b}, (∃ v, bytes v = b) ↔ fits b.length)
    (hok : ∀ {b v}, check b = .ok v ↔ bytes v = b)
    (hrefused : ∀ {b}, ¬fits b.length → check b = .error (refusal b.length))
    (hne : ∀ n, refusal n ≠ .malformedBase64) :
    Canonical core bytes fits refusal write read := by
  refine ⟨hwrite, hinj, hfits, ?_, ?_, ?_⟩
  · intro text v
    rw [hwrite, ← Base64.decodeText?_eq_some_iff, hread]
    cases Base64.decodeText? (core text) with
    | none => simp
    | some b => rw [Option.some.injEq, hok, eq_comm]
  · intro text b h hb
    rw [hread, Base64.decodeText?_eq_some_iff.2 h]
    exact hrefused hb
  · intro text
    simp only [ne_eq, ← Base64.decodeText?_eq_some_iff]
    rw [hread]
    cases Base64.decodeText? (core text) with
    | none => simp
    | some b =>
      have hcheck : check b ≠ .error .malformedBase64 := by
        by_cases hb : fits b.length
        · obtain ⟨v, hv⟩ := hfits.2 hb
          rw [hok.2 hv]
          simp
        · rw [hrefused hb]
          exact fun h => hne _ (Except.error.inj h)
      simp [hcheck]

/-- A type with the same values under another name is read and written the same way. -/
theorem Canonical.map (h : Canonical core bytes fits refusal write read) {mk : α → β}
    {un : β → α} (hmk : ∀ v, un (mk v) = v) (hun : ∀ w, mk (un w) = w) :
    Canonical core (fun w => bytes (un w)) fits refusal (fun w => write (un w))
      (fun text => mk <$> read text) := by
  have hmap : ∀ {text w}, mk <$> read text = .ok w ↔ read text = .ok (un w) := by
    intro text w
    rw [Outcome.map_eq_ok_iff]
    constructor
    · rintro ⟨v, hv, rfl⟩
      rw [hv, hmk]
    · intro hw
      exact ⟨_, hw, hun w⟩
  have herror : ∀ {text e}, mk <$> read text = .error e ↔ read text = .error e := by
    intro text e
    cases read text <;> simp [Functor.map, Except.map]
  refine ⟨fun w => h.write_eq _, ?_, ?_, hmap.trans h.ok_iff, ?_, herror.trans h.malformed_iff⟩
  · intro w w' heq
    rw [← hun w, h.injective heq, hun]
  · intro b
    rw [← h.exists_iff]
    constructor
    · intro ⟨w, hw⟩
      exact ⟨un w, hw⟩
    · intro ⟨v, hv⟩
      exact ⟨mk v, by rw [hmk, hv]⟩
  · intro text b hcore hb
    exact herror.2 (h.refused hcore hb)

end

/-! ## Blocks -/

theorem Block.injective_bytes {n : Nat} : Function.Injective (Block.bytes (n := n)) :=
  fun _ _ => Block.bytes_inj.1

theorem Block.exists_bytes_iff {n : Nat} {b : Bytes} :
    (∃ block : Block n, block.bytes = b) ↔ b.length = n :=
  ⟨fun ⟨block, h⟩ => h ▸ block.length_bytes, fun h => ⟨⟨b, h⟩, rfl⟩⟩

/-- A reader of blocks asks for their length. -/
theorem canonical_of_ofBytes {n : Nat} {read : String → Outcome (Block n)}
    (hread : ∀ text, read text = match Base64.decodeText? (core text) with
      | none => .error .malformedBase64
      | some b =>
        match Block.ofBytes? n b with
        | some block => .ok block
        | none => .error (refusal b.length))
    (hne : ∀ length, refusal length ≠ .malformedBase64) :
    Canonical core Block.bytes (· = n) refusal (fun block => Base64.encode block.bytes) read := by
  refine canonical_of_check _ hread (fun _ => rfl) Block.injective_bytes Block.exists_bytes_iff
    ?_ ?_ hne
  · intro b block
    rw [← Block.ofBytes?_eq_some_iff]
    cases Block.ofBytes? n b <;> simp
  · intro b hb
    rw [Block.ofBytes?, dif_neg hb]

theorem decodeText?_trimmed (text : String) :
    Base64.decodeText? (Blank.trimmed text) = Base64.decodeChars? (Blank.trim text.toList) := by
  rw [Base64.decodeText?, Blank.trimmed, String.toList_ofList]

/-- The text of a key is read between blanks. -/
theorem canonical_keyBlockOfText (what : String) :
    Canonical Blank.trimmed Block.bytes (· = 32)
      (fun length => .config s!"{what} must be 32 bytes, got {length}")
      (fun block => Base64.encode block.bytes) (keyBlockOfText what) := by
  refine canonical_of_ofBytes ?_ ?_
  · intro text
    rw [decodeText?_trimmed]
    cases hd : Base64.decodeChars? (Blank.trim text.toList) with
    | none => simp [keyBlockOfText, hd]
    | some b => cases hb : Block.ofBytes? 32 b <;> simp [keyBlockOfText, hd, hb]
  · intro length h
    cases h

/-- The text of material is read as it is. -/
theorem canonical_blockOfText (n : Nat) (what : String) :
    Canonical id Block.bytes (· = n)
      (fun length => .decoding s!"{what} must be {n} bytes, got {length}")
      (fun block => Base64.encode block.bytes) (blockOfText n what) := by
  refine canonical_of_ofBytes (fun _ => rfl) ?_
  intro length h
  -- The comma tells a wrong length from malformed Base64.
  have hmem : ',' ∈ (s!"{what} must be {n} bytes, got {length}").toList := by
    have hgot : ',' ∈ (toString " bytes, got ").toList := by decide
    simp only [String.toList_append, List.mem_append]
    exact .inl (.inr hgot)
  rw [ChatError.decoding.inj h] at hmem
  revert hmem
  decide

/-! ## Keys -/

theorem PrivateKey.canonical :
    Canonical Blank.trimmed (fun k => k.block.bytes) (· = 32)
      (fun length => .config s!"private key must be 32 bytes, got {length}") toBase64 ofBase64 :=
  (canonical_keyBlockOfText "private key").map (fun _ => rfl) fun _ => rfl

theorem PublicKey.canonical :
    Canonical Blank.trimmed (fun k => k.block.bytes) (· = 32)
      (fun length => .config s!"public key must be 32 bytes, got {length}") toBase64 ofBase64 :=
  (canonical_keyBlockOfText "public key").map (fun _ => rfl) fun _ => rfl

/-- A text between blanks is a key just when it is the text of that key. -/
theorem PublicKey.ofBase64_eq_ok_iff {text : String} {key : PublicKey} :
    ofBase64 text = .ok key ↔ Blank.trimmed text = key.toBase64 :=
  canonical.ok_iff

theorem IntegrityKey.ofBytes_eq_ok_iff {b : Bytes} {k : IntegrityKey} :
    ofBytes b = .ok k ↔ k.bytes = b := by
  constructor
  · intro h
    rw [ofBytes] at h
    split at h
    case isTrue =>
      cases h
      rfl
    case isFalse => cases h
  · intro h
    subst h
    exact dif_pos k.sixteen_le

theorem IntegrityKey.injective_bytes : Function.Injective bytes := by
  intro k k' h
  cases k
  cases k'
  cases h
  rfl

theorem IntegrityKey.canonical :
    Canonical Blank.trimmed bytes (16 ≤ ·)
      (fun length => .config s!"Integrity key too short: {length} bytes (minimum: 16)")
      toBase64 ofBase64 := by
  refine canonical_of_check ofBytes ?_ (fun _ => rfl) injective_bytes ?_
    ofBytes_eq_ok_iff (fun hb => dif_neg hb) ?_
  · intro text
    rw [decodeText?_trimmed]
    cases hd : Base64.decodeChars? (Blank.trim text.toList) <;> simp [ofBase64, hd]
  · intro b
    exact ⟨fun ⟨k, h⟩ => h ▸ k.sixteen_le, fun h => ⟨⟨b, h⟩, rfl⟩⟩
  · intro length h
    cases h

/-! ## Material -/

theorem Challenge.canonical :
    Canonical id (fun c => c.block.bytes) (· = 32)
      (fun length => .decoding s!"challenge must be {32} bytes, got {length}") toBase64 ofBase64 :=
  (canonical_blockOfText 32 "challenge").map (fun _ => rfl) fun _ => rfl

theorem SessionKey.canonical :
    Canonical id (fun k => k.block.bytes) (· = 32)
      (fun length => .decoding s!"session key must be {32} bytes, got {length}")
      toBase64 ofBase64 :=
  (canonical_blockOfText 32 "session key").map (fun _ => rfl) fun _ => rfl

theorem Iv.canonical :
    Canonical id (fun v => v.block.bytes) (· = 16)
      (fun length => .decoding s!"IV must be {16} bytes, got {length}") toBase64 ofBase64 :=
  (canonical_blockOfText 16 "IV").map (fun _ => rfl) fun _ => rfl

theorem Challenge.ofBase64_eq_ok_iff {text : String} {c : Challenge} :
    ofBase64 text = .ok c ↔ text = c.toBase64 :=
  canonical.ok_iff

theorem SessionKey.ofBase64_eq_ok_iff {text : String} {k : SessionKey} :
    ofBase64 text = .ok k ↔ text = k.toBase64 :=
  canonical.ok_iff

theorem Iv.ofBase64_eq_ok_iff {text : String} {v : Iv} :
    ofBase64 text = .ok v ↔ text = v.toBase64 :=
  canonical.ok_iff

/-! ## Key files -/

/-- How keys are kept in files: a file holds a key just when it reads as the text of the key, between
blanks, and such a text that is written is the key when it is loaded. -/
structure Filed {α : Type} (write : α → String) (load : FileTree → Path → Outcome α) : Prop where
  load_eq_ok_iff {t : FileTree} {p : Path} {v : α} : load t p = .ok v ↔
    ∃ text, t.readText p = .ok text ∧ Blank.Pads (write v) text
  load_of_write {t t' : FileTree} {p : Path} {v : α} {text : String}
    (h : t.write p (Utf8.encode text) = .ok t') (hpads : Blank.Pads (write v) text) :
    load t' p = .ok v

/-- To save a key is to write its text. A key that has been saved is loaded, and it still is when
blanks are put around it. -/
structure Reloads {α : Type} (write : α → String)
    (save : α → FileTree → Path → Outcome FileTree) (load : FileTree → Path → Outcome α) :
    Prop where
  save_eq_ok_iff {v : α} {t t' : FileTree} {p : Path} :
    save v t p = .ok t' ↔ t.write p (Utf8.encode (write v)) = .ok t'
  load_of_save {v : α} {t t' : FileTree} {p : Path} (h : save v t p = .ok t') : load t' p = .ok v
  exists_padded {v : α} {t t' : FileTree} {p : Path} {text : String} (h : save v t p = .ok t')
    (hpads : Blank.Pads (write v) text) :
    ∃ t'', t'.write p (Utf8.encode text) = .ok t'' ∧ load t'' p = .ok v

section

variable {α : Type} {bytes : α → Bytes} {fits : Nat → Prop} {refusal : Nat → ChatError}
  {write : α → String} {read : String → Outcome α} {load : FileTree → Path → Outcome α}
  {save : α → FileTree → Path → Outcome FileTree} {what : String}

/-- What is read from a file is what its text says. -/
theorem bind_keyText_eq_ok_iff {t : FileTree} {p : Path} {v : α} :
    keyText t p what >>= read = .ok v ↔ ∃ text, t.readText p = .ok text ∧ read text = .ok v := by
  rw [Outcome.bind_eq_ok_iff, keyText]
  cases t.readText p <;> simp

/-- **A canonical text can be kept in a file**, whatever blanks are around it. -/
theorem Canonical.filed (h : Canonical Blank.trimmed bytes fits refusal write read)
    (hload : ∀ t p, load t p = keyText t p what >>= read) : Filed write load := by
  have hiff : ∀ {t p v}, load t p = .ok v ↔
      ∃ text, t.readText p = .ok text ∧ Blank.Pads (write v) text := by
    intro t p v
    rw [hload, bind_keyText_eq_ok_iff]
    simp only [h.ok_iff, Blank.trimmed_eq_iff fun _ => h.not_isBlank v]
  refine ⟨hiff, ?_⟩
  intro t t' p v text hwrite hpads
  exact hiff.2 ⟨text, FileTree.readText_of_write hwrite, hpads⟩

theorem writeKeyText_eq_ok_iff {t t' : FileTree} {p : Path} {text : String} :
    writeKeyText t p what text = .ok t' ↔ t.write p (Utf8.encode text) = .ok t' := by
  rw [writeKeyText]
  cases t.write p (Utf8.encode text) <;> simp

theorem Filed.reloads (h : Filed write load)
    (hsave : ∀ v t p, save v t p = writeKeyText t p what (write v)) : Reloads write save load := by
  have hiff : ∀ {v t t' p}, save v t p = .ok t' ↔ t.write p (Utf8.encode (write v)) = .ok t' := by
    intro v t t' p
    rw [hsave, writeKeyText_eq_ok_iff]
  refine ⟨hiff, ?_, ?_⟩
  · intro v t t' p hsaved
    exact h.load_of_write (hiff.1 hsaved) (Blank.Pads.refl _)
  · intro v t t' p text hsaved hpads
    obtain ⟨t'', hwrite⟩ := FileTree.exists_write_of_write (hiff.1 hsaved) (Utf8.encode text)
    exact ⟨t'', hwrite, h.load_of_write hwrite hpads⟩

end

theorem PrivateKey.filed : Filed toBase64 load := canonical.filed fun _ _ => rfl

theorem PublicKey.filed : Filed toBase64 load := canonical.filed fun _ _ => rfl

theorem IntegrityKey.filed : Filed toBase64 load := canonical.filed fun _ _ => rfl

/-! ## What the curve sees of a private key -/

namespace X25519

/-- The scalar of a private key, written as a key. -/
def clamped (own : Block 32) : Block 32 :=
  ⟨Bytes.littleEndian 32 (clamp (Bytes.toNat own.bytes)), by simp⟩

/-- The part of a scalar below its highest bit. -/
theorem clamp_low (k : Nat) : k % Nat.pow 2 254 / 8 * 8 < Nat.pow 2 254 :=
  Nat.lt_of_le_of_lt (Nat.div_mul_le_self _ _) (Nat.mod_lt _ (Nat.pow_pos (by decide)))

theorem clamp_lt (k : Nat) : clamp k < 256 ^ 32 := by
  have hpow : Nat.pow 2 254 + Nat.pow 2 254 ≤ 256 ^ 32 := by decide
  have hlow := Nat.add_lt_add_right (clamp_low k) (Nat.pow 2 254)
  exact Nat.lt_of_lt_of_le hlow hpow

theorem clamp_clamp (k : Nat) : clamp (clamp k) = clamp k := by
  rw [clamp, clamp, Nat.add_mod_right, Nat.mod_eq_of_lt (clamp_low k),
    Nat.mul_div_cancel _ (by decide)]

theorem toNat_clamped (own : Block 32) :
    Bytes.toNat (clamped own).bytes = clamp (Bytes.toNat own.bytes) := by
  rw [clamped, Bytes.toNat_littleEndian, Nat.mod_eq_of_lt (clamp_lt _)]

/-- The curve takes a private key for its scalar. -/
theorem shared_clamped (own : Block 32) : shared (clamped own) = shared own := by
  funext opposite
  simp only [shared, toNat_clamped, clamp_clamp]

end X25519

/-! ## All texts -/

/-- **Texts of keys and of material are canonical.** A private key, a public key or an integrity key is
read from a text just when that is the text of the key, between any blanks, and a challenge, a session
key or a vector just when it is exactly its text; bytes of another length are refused by their length,
and what is not Base64 is malformed. So a key that is in a file is loaded, whatever blanks are around
it, and no other text is loaded as it; a private or public key that has been saved is loaded again.
A private key is kept as it is, though the curve takes it for its scalar: the two have one text only if
they are the same. -/
theorem texts_canonical :
    (Canonical Blank.trimmed (fun k => k.block.bytes) (· = 32)
        (fun length => .config s!"private key must be 32 bytes, got {length}")
        PrivateKey.toBase64 PrivateKey.ofBase64 ∧
      Canonical Blank.trimmed (fun k => k.block.bytes) (· = 32)
        (fun length => .config s!"public key must be 32 bytes, got {length}")
        PublicKey.toBase64 PublicKey.ofBase64 ∧
      Canonical Blank.trimmed IntegrityKey.bytes (16 ≤ ·)
        (fun length => .config s!"Integrity key too short: {length} bytes (minimum: 16)")
        IntegrityKey.toBase64 IntegrityKey.ofBase64) ∧
    (Canonical id (fun c => c.block.bytes) (· = 32)
        (fun length => .decoding s!"challenge must be {32} bytes, got {length}")
        Challenge.toBase64 Challenge.ofBase64 ∧
      Canonical id (fun k => k.block.bytes) (· = 32)
        (fun length => .decoding s!"session key must be {32} bytes, got {length}")
        SessionKey.toBase64 SessionKey.ofBase64 ∧
      Canonical id (fun v => v.block.bytes) (· = 16)
        (fun length => .decoding s!"IV must be {16} bytes, got {length}")
        Iv.toBase64 Iv.ofBase64) ∧
    (Filed PrivateKey.toBase64 PrivateKey.load ∧ Filed PublicKey.toBase64 PublicKey.load ∧
      Filed IntegrityKey.toBase64 IntegrityKey.load) ∧
    (Reloads PrivateKey.toBase64 PrivateKey.save PrivateKey.load ∧
      Reloads PublicKey.toBase64 PublicKey.save PublicKey.load) ∧
    ∀ own : Block 32, PrivateKey.ofBase64 (PrivateKey.toBase64 ⟨own⟩) = .ok ⟨own⟩ ∧
      X25519.shared (X25519.clamped own) = X25519.shared own ∧
      (PrivateKey.toBase64 ⟨X25519.clamped own⟩ = PrivateKey.toBase64 ⟨own⟩ ↔
        X25519.clamped own = own) := by
  refine ⟨⟨PrivateKey.canonical, PublicKey.canonical, IntegrityKey.canonical⟩,
    ⟨Challenge.canonical, SessionKey.canonical, Iv.canonical⟩,
    ⟨PrivateKey.filed, PublicKey.filed, IntegrityKey.filed⟩,
    ⟨PrivateKey.filed.reloads fun _ _ _ => rfl, PublicKey.filed.reloads fun _ _ _ => rfl⟩, ?_⟩
  intro own
  refine ⟨PrivateKey.canonical.ok_iff.2 ?_, X25519.shared_clamped own, ?_⟩
  · exact (Blank.trimmed_eq_iff fun _ => PrivateKey.canonical.not_isBlank _).2 (Blank.Pads.refl _)
  · rw [PrivateKey.canonical.write_injective.eq_iff, PrivateKey.mk.injEq]

/-- The key of zeros is saved, an editor puts a wide space in front of it and ends its line, and it
is loaded as it was, and not as the scalar that the curve takes it for. Three zeros are no key. -/
theorem texts_canonical_of_padded : ∃ t t' : FileTree,
    PrivateKey.save ⟨.zero 32⟩ (.bare ["work"]) ⟨"alice.key"⟩ = .ok t ∧
    t.write ⟨"alice.key"⟩
      (Utf8.encode ("\u3000" ++ PrivateKey.toBase64 ⟨.zero 32⟩ ++ "\r\n")) = .ok t' ∧
    PrivateKey.load t' ⟨"alice.key"⟩ = .ok ⟨.zero 32⟩ ∧
    PrivateKey.toBase64 ⟨X25519.clamped (.zero 32)⟩ ≠ PrivateKey.toBase64 ⟨.zero 32⟩ ∧
    PrivateKey.ofBase64 "AAAA" = .error (.config "private key must be 32 bytes, got 3") := by
  obtain ⟨⟨hkey, -, -⟩, -, -, ⟨hreloads, -⟩, hunclamped⟩ := texts_canonical
  obtain ⟨t, hsave⟩ : ∃ t, PrivateKey.save ⟨.zero 32⟩ (.bare ["work"]) ⟨"alice.key"⟩ = .ok t := by
    have hplace : (FileTree.bare ["work"]).place ⟨"alice.key"⟩ = .ok ["work", "alice.key"] := by
      decide
    simp only [PrivateKey.save, writeKeyText, FileTree.write, hplace]
    exact ⟨_, rfl⟩
  have hfront : ∀ c ∈ ['\u3000'], isBlank c := List.forall_mem_singleton.2 (by decide)
  have hback : ∀ c ∈ ['\r', '\n'], isBlank c :=
    List.forall_mem_cons.2 ⟨by decide, List.forall_mem_singleton.2 (by decide)⟩
  have hpads : Blank.Pads (PrivateKey.toBase64 ⟨.zero 32⟩)
      ("\u3000" ++ PrivateKey.toBase64 ⟨.zero 32⟩ ++ "\r\n") :=
    ⟨['\u3000'], ['\r', '\n'], hfront, hback, by simp⟩
  obtain ⟨t', hwrite, hload⟩ := hreloads.exists_padded hsave hpads
  refine ⟨t, t', hsave, hwrite, hload, ?_, ?_⟩
  · intro heq
    exact absurd ((hunclamped _).2.2.1 heq) (by decide)
  · exact hkey.refused (b := [0, 0, 0]) (by decide) (by decide)

end SealedChat
