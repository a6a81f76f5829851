import SealedChat.Proofs.Channel.Kept
import SealedChat.Proofs.Handshake.Stages

/-!
# What a login leaves of a channel

A login replaces the layer on top. Below it the layers stay what they are, and the line is closed if
the login fails, and by nothing else (`initiate_kept`, `respond_kept`).
-/

namespace SealedChat.Handshake

open Dialogue Channel

/-- A session over the same layers. -/
def Secured.Over (inner : Channel) (s : Secured) : Prop := renewed s.inner = renewed inner

variable [CipherSuite] {inner chain : Channel}

theorem staysOpen_confirmOver (secrets : Secrets) (inner : Channel) (confirm : Message)
    (identity : String) :
    Exchange.StaysOpen (fun s => s.Over inner ∧ s.identity = identity)
      (confirmOver secrets inner confirm identity) := by
  apply (staysOpen_say _ _).bind
  intro c hc
  obtain ⟨cipher, inner', rfl, -, -, hinner⟩ := of_renewed_symmetric hc
  exact Exchange.staysOpen_pure ⟨hinner, rfl⟩

theorem staysOpen_awaitReply {keys : SealingKeys} (machine : Initiator)
    (hc : chain.renewed = renewed (.asymmetric keys :: inner)) (identity : String)
    (limit : Duration) :
    Exchange.StaysOpen (fun s => s.Over inner ∧ s.identity = identity)
      (awaitReply machine chain identity limit) := by
  apply ((staysOpen_hear chain (some limit)).adapt rejected).bind
  intro ⟨reply, chain'⟩ hc'
  apply (Exchange.staysOpen_ofOutcome _).bind
  intro ⟨secrets, confirm⟩ _
  apply (staysOpen_confirmOver secrets chain'.tail confirm identity).mono
  intro s hs
  exact ⟨hs.1.trans (renewed_tail (hc'.trans hc)), hs.2⟩

theorem staysOpen_introduce (keys : SealingKeys) (inner : Channel) (machine : Initiator)
    (identity : String) (limit : Duration) :
    Exchange.StaysOpen (fun s => s.Over inner ∧ s.identity = identity)
      (introduce keys inner machine identity limit) := by
  apply (Exchange.staysOpen_ofDraw _).bind
  intro ⟨hello, machine'⟩ _
  apply (Exchange.staysOpen_ofOutcome _).bind
  intro hello _
  apply (staysOpen_say _ _).bind
  intro chain hc
  exact staysOpen_awaitReply machine' hc identity limit

/-- **An initiator** logs in under the name it was given, over the same layers, or closes the line. -/
theorem initiate_kept {keys : SealingKeys} {identity : String} {limit : Duration} {es : List Event}
    {o : Outcome Secured} (h : (initiate keys inner identity limit).Runs es o) :
    (∃ s, o = .ok s ∧ .closed ∉ es ∧ s.Over inner ∧ s.identity = identity) ∨
      ∃ e es', o = .error e ∧ es = es' ++ [.closed] ∧ .closed ∉ es' := by
  apply Exchange.runs_orClose_cases _ h
  cases keys.opposite with
  | none => exact Exchange.staysOpen_throw _
  | some key =>
    apply (Exchange.staysOpen_ofOutcome _).bind
    intro machine _
    exact staysOpen_introduce _ inner machine identity limit

theorem staysOpen_awaitConfirmation (machine : Responder) (secrets : Secrets) (inner : Channel)
    (limit : Duration) :
    Exchange.StaysOpen (Secured.Over inner) (awaitConfirmation machine secrets inner limit) := by
  apply (staysOpen_hear _ _).bind
  intro ⟨text, c⟩ hc
  apply (Exchange.staysOpen_ofOutcome _).bind
  intro identity _
  obtain ⟨cipher, inner', rfl, -, -, hinner⟩ := of_renewed_symmetric hc
  exact Exchange.staysOpen_pure hinner

theorem staysOpen_answerAndWait (keys : SealingKeys) (inner : Channel) (machine : Responder)
    (ca : Challenge) (limit : Duration) :
    Exchange.StaysOpen (Secured.Over inner) (answerAndWait keys inner machine ca limit) := by
  apply (Exchange.staysOpen_ofDraw _).bind
  intro ⟨answer, machine'⟩ _
  apply (Exchange.staysOpen_ofOutcome _).bind
  intro ⟨secrets, message⟩ _
  apply (staysOpen_say _ _).bind
  intro chain hc
  apply (staysOpen_awaitConfirmation machine' secrets chain.tail limit).mono
  intro s hs
  exact hs.trans (renewed_tail hc)

theorem staysOpen_hearAndAnswer (own : SealingKeys) (inner : Channel) (store : KeyStore)
    (first : Option Duration) (limit : Duration) :
    Exchange.StaysOpen (Secured.Over inner) (hearAndAnswer own inner store first limit) := by
  apply (staysOpen_hear _ _).bind
  intro ⟨hello, chain⟩ hc
  apply (Exchange.staysOpen_ofOutcome _).bind
  intro ⟨identity, ca⟩ _
  apply (Exchange.staysOpen_ofOutcome _).bind
  intro key _
  apply (staysOpen_answerAndWait { own with opposite := some key } chain.tail
    (Responder.new.onAuthenticate hello).2 ca limit).mono
  intro s hs
  exact hs.trans (renewed_tail hc)

/-- **A responder** lets someone log in over the same layers, or closes the line. -/
theorem respond_kept {own : SealingKeys} {store : KeyStore} {first : Option Duration}
    {limit : Duration} {es : List Event} {o : Outcome Secured}
    (h : (respond own inner store first limit).Runs es o) :
    (∃ s, o = .ok s ∧ .closed ∉ es ∧ s.Over inner) ∨
      ∃ e es', o = .error e ∧ es = es' ++ [.closed] ∧ .closed ∉ es' := by
  rw [respond_eq] at h
  exact Exchange.runs_orClose_cases (staysOpen_hearAndAnswer own inner store first limit) h

end SealedChat.Handshake
