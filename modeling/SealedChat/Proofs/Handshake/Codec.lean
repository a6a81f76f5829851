import SealedChat.Proofs.Handshake.Message

/-!
# The codec of handshake messages

A text is read in one of three forms, each the form of one kind of message. What is read in a form
is a message of that kind, and the text is its encoding: exactly for the two messages with a
command, and up to blanks around it for the third. So a text is read in one form at most, and what
is read in no form is refused with a cause that blames the handshake or its encoding.
-/

namespace SealedChat

/-! ## Refusals -/

/-- The causes a text of a handshake is refused with. -/
def ChatError.BlamesText (e : ChatError) : Prop :=
  (∃ detail, e = .handshake detail) ∨ ∃ detail, e = .decoding detail

/-- An outcome whose failures all blame the text. -/
def Outcome.BlamesText {α : Type} (x : Outcome α) : Prop :=
  ∀ e, x = .error e → e.BlamesText

namespace Outcome.BlamesText

variable {α β : Type}

theorem ok (a : α) : Outcome.BlamesText (.ok a : Outcome α) := by
  intro e h
  cases h

theorem handshake (detail : String) :
    Outcome.BlamesText (.error (.handshake detail) : Outcome α) := by
  intro e h
  cases h
  exact .inl ⟨detail, rfl⟩

theorem decoding (detail : String) :
    Outcome.BlamesText (.error (.decoding detail) : Outcome α) := by
  intro e h
  cases h
  exact .inr ⟨detail, rfl⟩

theorem bind {x : Outcome α} {f : α → Outcome β} (hx : Outcome.BlamesText x)
    (hf : ∀ a, Outcome.BlamesText (f a)) : Outcome.BlamesText (x >>= f) := by
  intro e h
  cases x with
  | error e' => exact hx e (by simpa [Bind.bind, Except.bind] using h)
  | ok a => exact hf a e h

theorem map {x : Outcome α} (f : α → β) (hx : Outcome.BlamesText x) :
    Outcome.BlamesText (f <$> x) := by
  intro e h
  cases x with
  | error e' => exact hx e (by simpa [Functor.map, Except.map] using h)
  | ok a => cases h

end Outcome.BlamesText

theorem Principal.blamesText_check (name : String) : Outcome.BlamesText (check name) := by
  unfold check
  split
  · exact .ok ()
  · exact .handshake _

theorem blamesText_blockOfText (n : Nat) (what text : String) :
    Outcome.BlamesText (blockOfText n what text) := by
  unfold blockOfText
  split
  · exact .decoding _
  · split
    · exact .ok _
    · exact .decoding _

theorem Challenge.blamesText_ofBase64 (text : String) : Outcome.BlamesText (ofBase64 text) :=
  .map _ (blamesText_blockOfText _ _ _)

theorem SessionKey.blamesText_ofBase64 (text : String) : Outcome.BlamesText (ofBase64 text) :=
  .map _ (blamesText_blockOfText _ _ _)

theorem Iv.blamesText_ofBase64 (text : String) : Outcome.BlamesText (ofBase64 text) :=
  .map _ (blamesText_blockOfText _ _ _)

namespace Handshake.Message

theorem blamesText_arguments (command : String) (count : Nat) (text : String) :
    Outcome.BlamesText (arguments command count text) := by
  unfold arguments
  split
  · exact .handshake _
  · split_ifs
    · exact .handshake _
    · exact .handshake _
    · exact .ok _

theorem blamesText_parseAuthenticate (text : String) :
    Outcome.BlamesText (parseAuthenticate text) := by
  apply Outcome.BlamesText.bind (blamesText_arguments _ _ _)
  intro ws
  split
  · apply Outcome.BlamesText.bind (Principal.blamesText_check _)
    intro _
    exact .bind (Challenge.blamesText_ofBase64 _) fun _ => .ok _
  · exact .handshake _

theorem blamesText_parseAccept (text : String) : Outcome.BlamesText (parseAccept text) := by
  apply Outcome.BlamesText.bind (blamesText_arguments _ _ _)
  intro ws
  split
  · apply Outcome.BlamesText.bind (Challenge.blamesText_ofBase64 _)
    intro _
    apply Outcome.BlamesText.bind (Challenge.blamesText_ofBase64 _)
    intro _
    apply Outcome.BlamesText.bind (SessionKey.blamesText_ofBase64 _)
    intro _
    exact .bind (Iv.blamesText_ofBase64 _) fun _ => .ok _
  · exact .handshake _

theorem blamesText_parseConfirm (text : String) : Outcome.BlamesText (parseConfirm text) :=
  Challenge.blamesText_ofBase64 _

/-! ## Forms -/

/-- The kinds of handshake messages. -/
inductive Form where
  | authenticate
  | accept
  | confirm
deriving DecidableEq

def form : Message → Form
  | authenticate _ _ => .authenticate
  | accept _ _ _ => .accept
  | confirm _ => .confirm

/-- The message that a text is read as in a form. -/
def read : Form → String → Outcome Message
  | .authenticate, text => (fun p => authenticate p.1 p.2) <$> parseAuthenticate text
  | .accept, text => (fun p => accept p.1 p.2.1 p.2.2) <$> parseAccept text
  | .confirm, text => confirm <$> parseConfirm text

theorem read_authenticate_eq_ok_iff {text : String} {m : Message} :
    read .authenticate text = .ok m ↔
      (∃ name c, m = authenticate name c ∧ Principal.check name = .ok ()) ∧ text = m.encode := by
  rw [read, Outcome.map_eq_ok_iff]
  constructor
  · intro ⟨(name, c), hp, hm⟩
    subst hm
    rw [parseAuthenticate_eq_ok_iff] at hp
    exact ⟨⟨name, c, rfl, Principal.check_eq_ok_iff.2 hp.1⟩, hp.2⟩
  · intro ⟨⟨name, c, hm, hn⟩, ht⟩
    subst hm
    exact ⟨(name, c), parseAuthenticate_eq_ok_iff.2 ⟨Principal.check_eq_ok_iff.1 hn, ht⟩, rfl⟩

theorem read_accept_eq_ok_iff {text : String} {m : Message} :
    read .accept text = .ok m ↔ (∃ ca cb s, m = accept ca cb s) ∧ text = m.encode := by
  rw [read, Outcome.map_eq_ok_iff]
  constructor
  · intro ⟨(ca, cb, s), hp, hm⟩
    subst hm
    exact ⟨⟨ca, cb, s, rfl⟩, parseAccept_eq_ok_iff.1 hp⟩
  · intro ⟨⟨ca, cb, s, hm⟩, ht⟩
    subst hm
    exact ⟨(ca, cb, s), parseAccept_eq_ok_iff.2 ht, rfl⟩

theorem read_confirm_eq_ok_iff {text : String} {m : Message} :
    read .confirm text = .ok m ↔
      (∃ c, m = confirm c) ∧ String.ofList (Blank.trim text.toList) = m.encode := by
  rw [read, Outcome.map_eq_ok_iff]
  constructor
  · intro ⟨c, hp, hm⟩
    subst hm
    exact ⟨⟨c, rfl⟩, parseConfirm_eq_ok_iff.1 hp⟩
  · intro ⟨⟨c, hm⟩, ht⟩
    subst hm
    exact ⟨c, parseConfirm_eq_ok_iff.2 ht, rfl⟩

theorem form_of_read {f : Form} {text : String} {m : Message} (h : read f text = .ok m) :
    m.form = f := by
  cases f with
  | authenticate =>
    obtain ⟨⟨_, _, rfl, -⟩, -⟩ := read_authenticate_eq_ok_iff.1 h
    rfl
  | accept =>
    obtain ⟨⟨_, _, _, rfl⟩, -⟩ := read_accept_eq_ok_iff.1 h
    rfl
  | confirm =>
    obtain ⟨⟨_, rfl⟩, -⟩ := read_confirm_eq_ok_iff.1 h
    rfl

/-- What is read from its command on is a valid message, and nothing else was written. -/
theorem eq_encode_of_read {f : Form} {text : String} {m : Message} (h : read f text = .ok m)
    (hf : f ≠ .confirm) : m.IsValid ∧ text = m.encode := by
  cases f with
  | authenticate =>
    obtain ⟨⟨_, _, rfl, hn⟩, ht⟩ := read_authenticate_eq_ok_iff.1 h
    exact ⟨Principal.check_eq_ok_iff.1 hn, ht⟩
  | accept =>
    obtain ⟨⟨_, _, _, rfl⟩, ht⟩ := read_accept_eq_ok_iff.1 h
    exact ⟨trivial, ht⟩
  | confirm => exact absurd rfl hf

/-- A challenge holds no command, so no message with one is read as a confirmation. -/
theorem eq_confirm_of_read {f : Form} {text : String} {m m' : Message} (h : read f text = .ok m)
    (h' : read .confirm text = .ok m') : f = .confirm := by
  by_contra hf
  obtain ⟨-, rfl⟩ := eq_encode_of_read h hf
  obtain ⟨c, hc, -⟩ := Outcome.map_eq_ok_iff.1 h'
  have hm := form_of_read h
  rw [eq_confirm_of_parseConfirm hc] at hm
  exact hf hm.symm

theorem form_unique {f f' : Form} {text : String} {m m' : Message} (h : read f text = .ok m)
    (h' : read f' text = .ok m') : f = f' := by
  by_cases hf : f = .confirm
  · subst hf
    exact (eq_confirm_of_read h' h).symm
  by_cases hf' : f' = .confirm
  · subst hf'
    exact eq_confirm_of_read h h'
  obtain ⟨hv, he⟩ := eq_encode_of_read h hf
  obtain ⟨hv', he'⟩ := eq_encode_of_read h' hf'
  have hm : m = m' := encode_inj hv hv' (he.symm.trans he')
  rw [← form_of_read h, hm, form_of_read h']

theorem blamesText_read (f : Form) (text : String) : Outcome.BlamesText (read f text) := by
  cases f with
  | authenticate => exact .map _ (blamesText_parseAuthenticate text)
  | accept => exact .map _ (blamesText_parseAccept text)
  | confirm => exact .map _ (blamesText_parseConfirm text)

/-- **Texts and messages match exactly.** An `authenticate` message with a valid name and an
`accept` message are read from their encodings alone, and a `confirm` message from its encoding
between blanks; no text is read in two forms, and every refusal blames the handshake or the
decoding. -/
theorem codec_exact (text : String) :
    (∀ m, read .authenticate text = .ok m ↔
      (∃ name c, m = authenticate name c ∧ Principal.check name = .ok ()) ∧ text = m.encode) ∧
    (∀ m, read .accept text = .ok m ↔ (∃ ca cb s, m = accept ca cb s) ∧ text = m.encode) ∧
    (∀ m, read .confirm text = .ok m ↔
      (∃ c, m = confirm c) ∧ String.ofList (Blank.trim text.toList) = m.encode) ∧
    (∀ f f' m m', read f text = .ok m → read f' text = .ok m' → f = f') ∧
    ∀ f e, read f text = .error e →
      (∃ detail, e = .handshake detail) ∨ ∃ detail, e = .decoding detail :=
  ⟨fun _ => read_authenticate_eq_ok_iff, fun _ => read_accept_eq_ok_iff,
    fun _ => read_confirm_eq_ok_iff, fun _ _ _ _ => form_unique, fun f => blamesText_read f text⟩

end Handshake.Message

end SealedChat
