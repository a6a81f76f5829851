import SealedChat.Proofs.Channel.Layer
import SealedChat.Proofs.Dialogue.Open

/-!
# What traffic leaves of a channel

Layers count what goes through them, and nothing else about them ever changes: their kinds, their
order and all keys stay (`Channel.renewed`). The line stays open, whatever is sent or received.
-/

namespace SealedChat

/-- The layer, with nothing gone through it. -/
def Layer.renewed : Layer → Layer
  | symmetric cipher => symmetric (.new cipher.secrets cipher.role)
  | layer => layer

/-- The layers of a channel, with nothing gone through them. -/
def Channel.renewed (c : Channel) : Channel := c.map Layer.renewed

/-- What has become of a channel below a symmetric layer, and of the layer. -/
theorem Channel.of_renewed_symmetric {cipher : SessionCipher} {inner c : Channel}
    (h : c.renewed = renewed (.symmetric cipher :: inner)) :
    ∃ (cipher' : SessionCipher) (inner' : Channel), c = .symmetric cipher' :: inner' ∧
      cipher'.secrets = cipher.secrets ∧ cipher'.role = cipher.role ∧
      inner'.renewed = inner.renewed := by
  cases c with
  | nil => cases h
  | cons layer inner' =>
    simp only [renewed, List.map_cons, List.cons.injEq] at h
    obtain ⟨hlayer, hinner⟩ := h
    cases layer with
    | symmetric cipher' =>
      simp only [Layer.renewed, Layer.symmetric.injEq, SessionCipher.new,
        SessionCipher.mk.injEq] at hlayer
      exact ⟨cipher', inner', rfl, hlayer.1, hlayer.2.1, hinner⟩
    | base64 => cases hlayer
    | asymmetric keys => cases hlayer
    | integrity key => cases hlayer

theorem Channel.renewed_tail {layer : Layer} {inner c : Channel}
    (h : c.renewed = renewed (layer :: inner)) : renewed c.tail = inner.renewed := by
  rw [renewed, List.map_tail]
  exact congrArg List.tail h

variable [CipherSuite]

/-! ## Layers -/

namespace Layer

theorem renewed_lift (layer : Layer) (payload : Bytes) :
    (layer.lift payload).2.renewed = layer.renewed := by
  cases layer with
  | base64 => rfl
  | symmetric cipher =>
    rcases cipher.decrypt_cases payload with ⟨plain, -, heq⟩ | ⟨e, heq⟩
    · rw [lift, heq]
      rfl
    · rw [lift, heq]
  | asymmetric keys => rfl
  | integrity key =>
    rw [lift]
    cases Tagged.verify key payload <;> rfl

theorem staysOpen_lower (layer : Layer) (payload : Bytes) :
    (Dialogue.ofDraw (layer.lower payload)).StaysOpen fun r => r.2.renewed = layer.renewed := by
  cases layer with
  | base64 => exact rfl
  | symmetric cipher =>
    rcases cipher.encrypt_cases payload with ⟨plain, -, heq⟩ | ⟨e, heq⟩
    · rw [lower, heq]
      exact rfl
    · rw [lower, heq]
      exact rfl
  | asymmetric keys =>
    rw [lower]
    cases keys.opposite with
    | none => exact rfl
    | some recipient =>
      rw [Dialogue.ofDraw_bind]
      exact (Dialogue.staysOpen_ofDraw _).bind fun _ _ => rfl
  | integrity key => exact rfl

end Layer

/-! ## Channels -/

namespace Channel

open Dialogue

theorem renewed_lift (c : Channel) (o : Outcome Bytes) : (c.lift o).2.renewed = c.renewed := by
  induction c with
  | nil => rfl
  | cons layer inner ih =>
    rw [lift]
    rcases hl : lift inner o with ⟨e | payload, inner'⟩
    · rw [hl] at ih
      exact congrArg (layer.renewed :: ·) ih
    · rw [hl] at ih
      exact congrArg₂ List.cons (layer.renewed_lift payload) ih

theorem staysOpen_receive (c : Channel) (limit : Option Duration) :
    (c.receive limit).StaysOpen fun r => r.2.renewed = c.renewed := by
  rw [receive_eq]
  exact fun o => c.renewed_lift o

theorem staysOpen_send (c : Channel) (payload : Bytes) :
    (c.send payload).StaysOpen fun r => r.2.renewed = c.renewed := by
  induction c generalizing payload with
  | nil => exact fun _ => rfl
  | cons layer inner ih =>
    rw [send_cons]
    apply (layer.staysOpen_lower payload).bind
    intro ⟨o, layer'⟩ hl
    cases o with
    | error e => exact congrArg (· :: renewed inner) hl
    | ok below =>
      apply (ih below).bind
      intro r hr
      exact congrArg₂ List.cons hl hr

theorem staysOpen_say (c : Channel) (text : String) :
    Exchange.StaysOpen (fun c' => c'.renewed = c.renewed) (c.say text) := by
  apply (c.staysOpen_send (Utf8.encode text)).bind
  intro ⟨o, c'⟩ hc
  cases o with
  | error e => exact Exchange.staysOpen_throw e
  | ok u => exact Exchange.staysOpen_pure hc

theorem staysOpen_hear (c : Channel) (limit : Option Duration) :
    Exchange.StaysOpen (fun r => r.2.renewed = c.renewed) (c.hear limit) := by
  apply (c.staysOpen_receive limit).bind
  intro ⟨o, c'⟩ hc
  cases o with
  | error e => exact Exchange.staysOpen_throw e
  | ok payload =>
    intro r hr
    cases htext : textOf payload with
    | error e =>
      rw [htext] at hr
      cases hr
    | ok text =>
      rw [htext] at hr
      cases hr
      exact hc

end Channel

end SealedChat
