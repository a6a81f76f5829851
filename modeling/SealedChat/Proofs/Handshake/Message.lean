import SealedChat.Handshake.Message
import SealedChat.Proofs.Keys.Texts

/-!
# The texts of handshake messages

Each parser accepts the encodings of its own kind of message and nothing else, so what a handshake
believes to have heard is what somebody has encoded.
-/

namespace SealedChat

namespace Handshake.Message

/-! ## Words -/

/-- The words of a message hold no spaces, as long as nobody is named with one. -/
def Spaceless (m : Message) : Prop := ∀ w ∈ m.words, ' ' ∉ w.toList

theorem not_mem_space_encode (b : Bytes) : ' ' ∉ (Base64.encode b).toList := by
  rw [Base64.encode, String.toList_ofList]
  intro h
  exact (Base64.isSymbol_of_mem h).not_isBlank (by decide)

theorem not_mem_space_of_isValid {name : String} (h : Principal.IsValid name) :
    ' ' ∉ name.toList := fun hm => by
  have := List.all_eq_true.1 h.2.2.2 _ hm
  revert this
  decide

theorem spaceless_authenticate {name : String} (h : Principal.IsValid name) (c : Challenge) :
    (authenticate name c).Spaceless := by
  intro w hw
  simp only [words, List.mem_cons, List.not_mem_nil, or_false] at hw
  rcases hw with rfl | rfl | rfl
  · decide
  · exact not_mem_space_of_isValid h
  · exact not_mem_space_encode _

theorem spaceless_accept (ca cb : Challenge) (s : Secrets) : (accept ca cb s).Spaceless := by
  intro w hw
  simp only [words, List.mem_cons, List.not_mem_nil, or_false] at hw
  rcases hw with rfl | rfl | rfl | rfl | rfl
  · decide
  all_goals exact not_mem_space_encode _

theorem words_ne_nil (m : Message) : m.words ≠ [] := by
  cases m <;> simp [words]

theorem ofText_encode {m : Message} (h : m.Spaceless) : Words.ofText ' ' m.encode = m.words :=
  Words.ofText_intercalate m.words_ne_nil h

theorem eq_encode_of_ofText {m : Message} {text : String} (h : Words.ofText ' ' text = m.words) :
    text = m.encode := by
  rw [encode, ← h]
  exact (Words.intercalate_ofText ' ' text).symm

theorem arguments_eq_ok_iff {command text : String} {count : Nat} {ws : List String} :
    arguments command count text = .ok ws ↔
      Words.ofText ' ' text = command :: ws ∧ ws.length = count ∧ ∀ w ∈ ws, w.isEmpty = false := by
  unfold arguments
  split
  next h => simp [h]
  next head rest h =>
    rw [h]
    split_ifs with h1 h2
    · simp [h1]
    · simp only [List.cons.injEq, false_iff, not_and]
      rintro ⟨-, rfl⟩ hl he
      rcases h2 with h2 | h2
      · exact h2 hl
      · obtain ⟨w, hw, h2⟩ := List.any_eq_true.1 h2
        rw [he w hw] at h2
        cases h2
    · rw [not_ne_iff] at h1
      rw [not_or, not_ne_iff] at h2
      constructor
      · rintro ⟨rfl⟩
        refine ⟨by rw [h1], h2.1, fun w hw => Bool.eq_false_iff.2 fun he => ?_⟩
        exact h2.2 (List.any_eq_true.2 ⟨w, hw, he⟩)
      · rintro ⟨h, -⟩
        rw [(List.cons.inj h).2]

/-! ## Parsers -/

theorem isEmpty_encode {n : Nat} (b : Block (n + 1)) :
    (Base64.encode b.bytes).isEmpty = false := by
  refine Bool.eq_false_iff.2 fun h => ?_
  have hb : b.bytes = [] := Base64.encode_injective ((String.isEmpty_iff.1 h).trans rfl)
  have := b.length_bytes
  rw [hb] at this
  cases this

theorem isEmpty_of_isValid {name : String} (h : Principal.IsValid name) : name.isEmpty = false := by
  refine Bool.eq_false_iff.2 fun he => h.1 ?_
  rw [String.isEmpty_iff.1 he]
  rfl

/-- **Who speaks** is heard just from the encodings of `authenticate` messages with a valid name. -/
theorem parseAuthenticate_eq_ok_iff {text name : String} {c : Challenge} :
    parseAuthenticate text = .ok (name, c) ↔
      Principal.IsValid name ∧ text = (authenticate name c).encode := by
  rw [parseAuthenticate, Outcome.bind_eq_ok_iff]
  constructor
  · rintro ⟨ws, hws, h⟩
    obtain ⟨hsplit, hlen, -⟩ := arguments_eq_ok_iff.1 hws
    match ws, hlen with
    | [n, w], _ => 
      simp only [Outcome.bind_eq_ok_iff] at h
      obtain ⟨_, hn, c', hc, h⟩ := h
      cases h
      rw [Challenge.ofBase64_eq_ok_iff] at hc
      subst hc
      exact ⟨Principal.check_eq_ok_iff.1 hn, eq_encode_of_ofText hsplit⟩
  · rintro ⟨hv, rfl⟩
    refine ⟨[name, c.toBase64],
      arguments_eq_ok_iff.2 ⟨ofText_encode (spaceless_authenticate hv c), rfl, ?_⟩, ?_⟩
    · intro w hw
      simp only [List.mem_cons, List.not_mem_nil, or_false] at hw
      rcases hw with rfl | rfl
      · exact isEmpty_of_isValid hv
      · exact isEmpty_encode _
    · simp only [Outcome.bind_eq_ok_iff]
      exact ⟨(), Principal.check_eq_ok_iff.2 hv, c, Challenge.ofBase64_eq_ok_iff.2 rfl, rfl⟩

theorem parseAccept_eq_ok_iff {text : String} {ca cb : Challenge} {s : Secrets} :
    parseAccept text = .ok (ca, cb, s) ↔ text = (accept ca cb s).encode := by
  rw [parseAccept, Outcome.bind_eq_ok_iff]
  constructor
  · rintro ⟨ws, hws, h⟩
    obtain ⟨hsplit, hlen, -⟩ := arguments_eq_ok_iff.1 hws
    match ws, hlen with
    | [w1, w2, w3, w4], _ => 
      simp only [Outcome.bind_eq_ok_iff, Challenge.ofBase64_eq_ok_iff,
        SessionKey.ofBase64_eq_ok_iff, Iv.ofBase64_eq_ok_iff] at h
      obtain ⟨ca', rfl, cb', rfl, k, rfl, v, rfl, h⟩ := h
      cases h
      exact eq_encode_of_ofText hsplit
  · rintro rfl
    refine ⟨[ca.toBase64, cb.toBase64, s.key.toBase64, s.iv.toBase64],
      arguments_eq_ok_iff.2 ⟨ofText_encode (spaceless_accept ca cb s), rfl, ?_⟩, ?_⟩
    · intro w hw
      simp only [List.mem_cons, List.not_mem_nil, or_false] at hw
      rcases hw with rfl | rfl | rfl | rfl <;> exact isEmpty_encode _
    · simp only [Outcome.bind_eq_ok_iff, Challenge.ofBase64_eq_ok_iff,
        SessionKey.ofBase64_eq_ok_iff, Iv.ofBase64_eq_ok_iff]
      exact ⟨_, rfl, _, rfl, _, rfl, _, rfl, rfl⟩

theorem parseConfirm_eq_ok_iff {text : String} {c : Challenge} :
    parseConfirm text = .ok c ↔ String.ofList (Blank.trim text.toList) = (confirm c).encode := by
  rw [parseConfirm, Challenge.ofBase64_eq_ok_iff, encode, words, String.intercalate_singleton]

/-! ## One message for each text -/

/-- Nobody is named in a way that nobody can be named. -/
def IsValid : Message → Prop
  | authenticate name _ => Principal.IsValid name
  | accept _ _ _ | confirm _ => True

theorem IsValid.spaceless {m : Message} (h : m.IsValid) : m.Spaceless := by
  cases m with
  | authenticate name c => exact spaceless_authenticate h c
  | accept ca cb s => exact spaceless_accept ca cb s
  | confirm c =>
    intro w hw
    rw [words, List.mem_singleton] at hw
    exact hw ▸ not_mem_space_encode _

theorem words_injective : Function.Injective words := by
  intro m m' h
  cases m <;> cases m' <;>
    simp only [words, Challenge.toBase64, SessionKey.toBase64, Iv.toBase64, List.cons.injEq,
      Base64.encode_injective.eq_iff, Block.bytes_inj, and_true, reduceCtorEq, and_false] at h
  · next c _ c' =>
    obtain ⟨-, rfl, h⟩ := h
    rw [show c = c' from congrArg Challenge.mk h]
  · next ca cb s ca' cb' s' =>
    obtain ⟨-, ha, hb, hk, hv⟩ := h
    rw [show ca = ca' from congrArg Challenge.mk ha, show cb = cb' from congrArg Challenge.mk hb,
      show s = s' from congrArg₂ (fun k v => Secrets.mk ⟨k⟩ ⟨v⟩) hk hv]
  · next c c' => rw [show c = c' from congrArg Challenge.mk h]

theorem encode_inj {m m' : Message} (h : m.IsValid) (h' : m'.IsValid) (he : m.encode = m'.encode) :
    m = m' :=
  words_injective (by rw [← ofText_encode h.spaceless, he, ofText_encode h'.spaceless])

@[simp] theorem encode_confirm (c : Challenge) : (confirm c).encode = c.toBase64 := by
  rw [encode, words, String.intercalate_singleton]

theorem isSymbol_of_mem_toBase64 {c : Challenge} {x : Char} (h : x ∈ c.toBase64.toList) :
    Base64.IsSymbol x := by
  rw [Challenge.toBase64, Base64.encode, String.toList_ofList] at h
  exact Base64.isSymbol_of_mem h

/-- A `confirm` message is heard as what it was. -/
theorem parseConfirm_encode_confirm (c : Challenge) : parseConfirm (confirm c).encode = .ok c := by
  rw [parseConfirm_eq_ok_iff, encode_confirm,
    Blank.trim_of_not_isBlank fun _ h => (isSymbol_of_mem_toBase64 h).not_isBlank,
    String.ofList_toList]

/-- The commands cannot be part of a challenge. -/
theorem parseConfirm_ne_ok {text : String} {c : Challenge} (h : '!' ∈ text.toList) :
    parseConfirm text ≠ .ok c := by
  intro hc
  rw [parseConfirm_eq_ok_iff, encode_confirm, ← String.toList_inj, String.toList_ofList] at hc
  have hm : '!' ∈ c.toBase64.toList := hc ▸ Blank.mem_trim h (by decide)
  exact (isSymbol_of_mem_toBase64 hm).elim (P := fun x => x ≠ '!') (by decide) (by decide) rfl

/-- Only `confirm` messages are heard as such. -/
theorem eq_confirm_of_parseConfirm {m : Message} {c : Challenge}
    (h : parseConfirm m.encode = .ok c) : m = confirm c := by
  cases m with
  | authenticate name c' =>
    exact absurd h (parseConfirm_ne_ok (by simp [encode, words, authenticateCommand]))
  | accept ca cb s => exact absurd h (parseConfirm_ne_ok (by simp [encode, words, acceptCommand]))
  | confirm c' =>
    rw [parseConfirm_encode_confirm] at h
    rw [Except.ok.inj h]

end Handshake.Message

end SealedChat
