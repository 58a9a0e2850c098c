import RecordGateway.Proofs.Credential.Custody
import RecordGateway.Proofs.Fault.Report

/-!
What those are told who are refused an access token. The reason is always the explanation of the fault with
which a login has failed, in whatever order the refresher, its readers and the clock go on, and so it is as
short as the client wants explanations to be (`Runs.length_reason`).
-/

namespace RecordGateway.Credential

variable {start session next : Session} {log happenings : List Happening} {seen : Option Nat}
  {limits : Limits} {reason : String}

/-- A reader is refused only for the reason that the refresher holds. -/
theorem held_of_refused (h : session.pollCredential seen limits = .answered (.refused reason) next) :
    held session = some (.failed reason) := by
  obtain ⟨refresher, hrefresher, hlook⟩ := look_of_answered (by simp) h
  rw [held, hrefresher, Option.map_some]
  unfold Refresher.look at hlook
  cases hholding : refresher.holding with
  | failed given =>
      rw [hholding] at hlook
      obtain rfl := Answer.refused.inj (Option.some.inj hlook)
      rfl
  | ready token =>
      rw [hholding] at hlook
      cases hexpired : token.isExpired session.now <;> cases hphase : refresher.phase <;>
        simp [hexpired, hphase] at hlook
  | pending =>
      rw [hholding] at hlook
      cases hphase : refresher.phase <;> simp [hphase] at hlook

theorem client_stepRefresher (h : session.stepRefresher? = some next) :
    next.client = session.client := by
  rw [Session.stepRefresher?] at h
  obtain ⟨refresher, -, hrest⟩ := Option.bind_eq_some_iff.mp h
  cases hphase : refresher.phase with
  | starting =>
      rw [hphase] at hrest
      obtain rfl := Option.some.inj hrest
      unfold Session.makeLogin Session.takeLogin
      dsimp only
      split <;> rfl
  | _ =>
      rw [hphase] at hrest
      obtain ⟨stepped, -, hnext⟩ := Option.bind_eq_some_iff.mp hrest
      obtain rfl := Option.some.inj hnext
      rfl

theorem Move.client_eq (h : Move session happenings next) : next.client = session.client := by
  cases h with
  | refresh hstep => exact client_stepRefresher hstep
  | look reader seen limits =>
      rcases Session.session_pollCredential session seen limits with hsame | hrenewed
      · rw [hsame]
      · rw [hrenewed]
        rfl
  | aside _ _ hclient => exact hclient
  | _ => rfl

theorem Runs.client_eq (h : Runs start log session) : session.client = start.client := by
  induction h with
  | refl => rfl
  | step _ hmove ih => exact hmove.client_eq.trans ih

/-- Whatever has happened in a session, the reason that is held is no longer than explanations may be. -/
theorem Runs.length_reason (hstart : ∀ reason, held start ≠ some (.failed reason))
    (h : Runs start log session) (hheld : held session = some (.failed reason)) :
    reason.utf8ByteSize ≤ start.client.reporter.maxLength := by
  induction h with
  | refl => exact absurd hheld (hstart reason)
  | step hrun hmove ih =>
      rcases hmove.turn.of_held_failed hheld with hkept | ⟨⟨fault, -, rfl⟩, -⟩
      · exact ih hkept
      · rw [← hrun.client_eq]
        exact (Excerpt.longest_cut_joinUpTo _ _ _ _).fits

/-- Nothing is held when a session begins. -/
theorem held_start (client : Client) (script : Session.Script) (reason : String) :
    held (.start client script) ≠ some (.failed reason) := by
  rw [held, Session.start]
  cases client.config.credentials with
  | none => rintro ⟨⟩
  | some credentials => rintro ⟨⟩

end RecordGateway.Credential
