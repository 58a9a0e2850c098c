import Mathlib.Data.List.Forall2
import RecordGateway.Proofs.Flow.Asks

/-!
Answers that make no difference. A flow is indifferent to a relation between answers if it goes on in the
same way whichever of two related answers it gets. Then histories that differ in such answers only lead
to the same result (`Indifferent.ends`).
-/

namespace RecordGateway

/-- Which answers to a question are not to be told apart. -/
abbrev Alikeness := (question : Ask) → question.Answer → question.Answer → Prop

/-- The same question with answers that are not to be told apart. -/
inductive Event.Alike (alike : Alikeness) : Event → Event → Prop where
  | intro {question : Ask} {answer other : question.Answer} :
      alike question answer other → Event.Alike alike ⟨question, answer⟩ ⟨question, other⟩

namespace Flow

variable {α β : Type} {alike : Alikeness}

/-- Whichever of two alike answers the flow gets, it goes on in the same way. -/
def Indifferent (alike : Alikeness) : Flow α → Prop
  | .done _ => True
  | .ask question next =>
    (∀ answer other, alike question answer other → next answer = next other) ∧
      ∀ answer, (next answer).Indifferent alike

theorem Indifferent.ends {flow : Flow α} {history other : History} {value : α}
    (h : flow.Indifferent alike) (halike : List.Forall₂ (Event.Alike alike) history other)
    (hends : flow.Ends history value) : flow.Ends other value := by
  induction hends generalizing other with
  | done value =>
      cases halike
      exact .done value
  | @ask question next answer history value hends ih =>
      obtain ⟨_, rest, ⟨hanswer⟩, hrest, rfl⟩ := List.forall₂_cons_left_iff.mp halike
      have hends := ih (h.2 answer) hrest
      rw [h.1 _ _ hanswer] at hends
      exact .ask hends

theorem indifferent_pure (value : α) : (pure value : Flow α).Indifferent alike :=
  trivial

theorem Indifferent.bind {flow : Flow α} {f : α → Flow β} (hflow : flow.Indifferent alike)
    (hf : ∀ value, (f value).Indifferent alike) : (flow >>= f).Indifferent alike := by
  induction flow with
  | done value => exact hf value
  | ask question next ih =>
      rw [ask_bind]
      refine ⟨fun answer other halike => ?_, fun answer => ih answer (hflow.2 answer)⟩
      exact congrArg (· >>= f) (hflow.1 answer other halike)

/-- A flow is indifferent if all its questions are such that alike answers are the same. -/
theorem indifferent_of_asks {flow : Flow α} {allowed : Ask → Prop}
    (hsame : ∀ question, allowed question → ∀ answer other, alike question answer other →
      answer = other) (h : flow.Asks allowed) : flow.Indifferent alike := by
  induction flow with
  | done value => exact indifferent_pure value
  | ask question next ih =>
      constructor
      · intro answer other halike
        obtain ⟨history, -, hends⟩ := ends_undisturbed (next answer)
        have hallowed : allowed question := h _ _ (.ask hends) _ (List.mem_cons_self ..)
        rw [hsame question hallowed answer other halike]
      · intro answer
        refine ih answer fun history value hends event hmem => ?_
        exact h _ _ (.ask hends) event (List.mem_cons_of_mem _ hmem)

theorem Indifferent.run_bind {making : ExceptT Fault Flow α} {f : α → ExceptT Fault Flow β}
    (hmaking : making.run.Indifferent alike) (hf : ∀ value, (f value).run.Indifferent alike) :
    (making >>= f).run.Indifferent alike := by
  rw [ExceptT.run_bind]
  refine hmaking.bind fun outcome => ?_
  cases outcome with
  | error fault => exact indifferent_pure _
  | ok value => exact hf value

theorem indifferent_run_lift (outcome : Except Fault α) :
    (liftM outcome : ExceptT Fault Flow α).run.Indifferent alike := by
  cases outcome with
  | ok value => exact indifferent_pure _
  | error fault => exact indifferent_pure _

end Flow
end RecordGateway
