import SealedChat.Proofs.Dialogue
import SealedChat.Session

/-!
# Who a session says is logged in

Only a login that succeeds and a logout change who is logged in. Traffic leaves it as it is, also
when it fails: an identity is held until it is given back.
-/

namespace SealedChat.Session

open Dialogue

variable {s s' : Session} {es : List Event}

theorem identity_moved {cipher : SessionCipher} {inner : Channel} {identity : String}
    (h : s.stage = .authenticated cipher inner identity) (channel : Channel) :
    (s.moved identity channel).identity = some identity := by
  have hs : s.identity = some identity := by simp [Session.identity, h]
  unfold moved
  split
  · rfl
  · exact hs

theorem identity_of_runs_login {handshake : Channel → Dialogue (Outcome Handshake.Secured)}
    {identity : String} (h : (s.login handshake).Runs es (.ok identity, s')) :
    s'.identity = some identity := by
  cases hs : s.stage with
  | unauthenticated inner =>
    simp only [login, hs] at h
    obtain ⟨es₁, es₂, o, rfl, -, h₂⟩ := runs_bind_iff.1 h
    cases o with
    | error e =>
      obtain ⟨-, he⟩ := runs_done_iff.1 h₂
      cases he
    | ok secured =>
      obtain ⟨-, he⟩ := runs_done_iff.1 h₂
      cases he
      rfl
  | authenticated cipher inner identity' =>
    simp only [login, hs] at h
    obtain ⟨-, he⟩ := runs_done_iff.1 h
    cases he
  | closed =>
    simp only [login, hs] at h
    obtain ⟨-, he⟩ := runs_done_iff.1 h
    cases he

theorem identity_of_logout_error {e : ChatError} (h : s.logout = (.error e, s')) :
    s'.identity = s.identity := by
  unfold logout at h
  split at h
  · cases h
  · cases h
    rfl

/-- Traffic that refuses, or moves a channel on, keeps who is logged in. -/
theorem identity_of_runs_traffic {α : Type} {traffic : SessionCipher → Channel →
      Dialogue (Outcome α × Channel)} {o : Outcome α}
    (h : (match s.stage with
      | .authenticated cipher inner identity => do
        let (o, channel) ← traffic cipher inner
        return (o, s.moved identity channel)
      | _ => return (.error s.refusal, s) : Dialogue (Outcome α × Session)).Runs es (o, s')) :
    s'.identity = s.identity := by
  cases hs : s.stage with
  | authenticated cipher inner identity =>
    simp only [hs] at h
    obtain ⟨es₁, es₂, ⟨o', channel⟩, rfl, -, h₂⟩ := runs_bind_iff.1 h
    obtain ⟨-, he⟩ := runs_done_iff.1 h₂
    cases he
    rw [identity_moved hs, Session.identity, hs]
  | unauthenticated inner =>
    simp only [hs] at h
    obtain ⟨-, he⟩ := runs_done_iff.1 h
    cases he
    rfl
  | closed =>
    simp only [hs] at h
    obtain ⟨-, he⟩ := runs_done_iff.1 h
    cases he
    rfl

variable [CipherSuite]

theorem identity_of_runs_send {payload : Bytes} {o : Outcome Unit}
    (h : (s.send payload).Runs es (o, s')) : s'.identity = s.identity :=
  identity_of_runs_traffic h

theorem identity_of_runs_receive {limit : Option Duration} {o : Outcome Bytes}
    (h : (s.receive limit).Runs es (o, s')) : s'.identity = s.identity :=
  identity_of_runs_traffic h

end SealedChat.Session
