import RecordGateway.Proofs.Flow.History

/-!
Traces that activities leave. A property of histories that also holds of two histories after each other, the
first of which ends well (`Lasting`), need only be shown of what activities are put together from: it
carries over to all that is done one after the other (`Lasting.leaves_bind`, `Lasting.traces_bind`).
-/

namespace RecordGateway

/-- Whether a question hands a request over. -/
def Ask.IsRequest : Ask → Prop
  | .send _ | .openStream _ => True
  | _ => False

namespace Flow

variable {α β σ : Type} {trace : Bool → History → Prop} {holds : σ → Prop}

/-- A property of a history and of whether it has led to a success, which holds where nothing is asked, and
of a history that goes on after a success if it holds of both parts. -/
structure Lasting (trace : Bool → History → Prop) : Prop where
  nil : ∀ succeeded, trace succeeded []
  append : ∀ {succeeded front back},
    trace true front → trace succeeded back → trace succeeded (front ++ back)

/-- What is said of every question holds of two histories after each other. -/
theorem lasting_forall (allowed : Ask → Prop) :
    Lasting fun _ history => ∀ event ∈ history, allowed event.question :=
  ⟨fun _ => List.forall_mem_nil _, fun hfront hback => List.forall_mem_append.mpr ⟨hfront, hback⟩⟩

/-- Whatever answers the activity gets, it leaves such a trace. -/
def Leaves (trace : Bool → History → Prop) (making : ExceptT Fault Flow α) : Prop :=
  ∀ history result, making.run.Ends history result → trace result.isOk history

/-- Whatever answers the flow gets, something can be said of its history. -/
def Always (mark : History → Prop) (flow : Flow α) : Prop :=
  ∀ history value, flow.Ends history value → mark history

/-- From states in which something holds the activity leaves such a trace, and it leads to such states
only. -/
def Traces (holds : σ → Prop) (trace : Bool → History → Prop)
    (activity : ExceptT Fault (StateT σ Flow) α) : Prop :=
  ∀ state history result final, holds state → Yields activity state history result final →
    holds final ∧ trace result.isOk history

namespace Lasting

variable (h : Lasting trace)
include h

/-! ### Activities without a state -/

theorem leaves_pure (value : α) : Leaves trace (pure value) := by
  intro history result hends
  obtain ⟨rfl, -⟩ := ends_pure_iff.mp hends
  exact h.nil _

theorem leaves_throw (fault : Fault) : Leaves trace (throw fault : ExceptT Fault Flow α) := by
  intro history result hends
  obtain ⟨rfl, -⟩ := ends_pure_iff.mp hends
  exact h.nil _

theorem leaves_lift (outcome : Except Fault α) : Leaves trace (liftM outcome : ExceptT Fault Flow α) := by
  intro history result hends
  obtain ⟨rfl, -⟩ := ends_run_lift_iff.mp hends
  exact h.nil _

theorem leaves_bind {making : ExceptT Fault Flow α} {f : α → ExceptT Fault Flow β}
    (hmaking : Leaves trace making) (hf : ∀ value, Leaves trace (f value)) :
    Leaves trace (making >>= f) := by
  intro history result hends
  rcases ends_run_bind_iff.mp hends with
    ⟨fault, hfault, rfl⟩ | ⟨front, back, value, rfl, hfront, hback⟩
  · exact hmaking _ _ hfault
  · exact h.append (hmaking _ _ hfront) (hf value _ _ hback)

theorem leaves_query_bind {question : Ask} {f : question.Answer → ExceptT Fault Flow β}
    (hquestion : ∀ answer, trace true [⟨question, answer⟩]) (hf : ∀ answer, Leaves trace (f answer)) :
    Leaves trace (ExceptT.lift (query question) >>= f) := by
  intro history result hends
  obtain ⟨answer, rest, rfl, hrest⟩ := ends_run_query_bind_iff.mp hends
  exact h.append (hquestion answer) (hf answer _ _ hrest)

/-! ### Activities with a state -/

theorem traces_pure (value : α) :
    Traces holds trace (pure value : ExceptT Fault (StateT σ Flow) α) := by
  intro state history result final hstate hends
  obtain ⟨rfl, rfl, rfl⟩ := yields_pure_iff.mp hends
  exact ⟨hstate, h.nil _⟩

theorem traces_throw (fault : Fault) :
    Traces holds trace (throw fault : ExceptT Fault (StateT σ Flow) α) := by
  intro state history result final hstate hends
  obtain ⟨rfl, rfl, rfl⟩ := yields_throw_iff.mp hends
  exact ⟨hstate, h.nil _⟩

theorem traces_lift (outcome : Except Fault α) :
    Traces holds trace (liftM outcome : ExceptT Fault (StateT σ Flow) α) := by
  intro state history result final hstate hends
  obtain ⟨rfl, rfl, rfl⟩ := yields_lift_iff.mp hends
  exact ⟨hstate, h.nil _⟩

theorem traces_set {next : σ} (hnext : holds next) :
    Traces holds trace (set next : ExceptT Fault (StateT σ Flow) PUnit) := by
  intro state history result final _ hends
  obtain ⟨rfl, rfl, rfl⟩ := yields_set_iff.mp hends
  exact ⟨hnext, h.nil _⟩

theorem traces_modify {change : σ → σ} (hchange : ∀ state, holds state → holds (change state)) :
    Traces holds trace (modify change : ExceptT Fault (StateT σ Flow) PUnit) := by
  intro state history result final hstate hends
  obtain ⟨rfl, rfl, rfl⟩ := yields_modify_iff.mp hends
  exact ⟨hchange state hstate, h.nil _⟩

theorem traces_bind {activity : ExceptT Fault (StateT σ Flow) α}
    {f : α → ExceptT Fault (StateT σ Flow) β} (hactivity : Traces holds trace activity)
    (hf : ∀ value, Traces holds trace (f value)) : Traces holds trace (activity >>= f) := by
  intro state history result final hstate hends
  rcases yields_bind_iff.mp hends with
    ⟨fault, hfault, rfl⟩ | ⟨front, back, value, middle, rfl, hfront, hback⟩
  · exact hactivity _ _ _ _ hstate hfault
  · obtain ⟨hmiddle, htrace⟩ := hactivity _ _ _ _ hstate hfront
    obtain ⟨hfinal, hlater⟩ := hf value _ _ _ _ hmiddle hback
    exact ⟨hfinal, h.append htrace hlater⟩

end Lasting

/-! ### Flows that cannot fail -/

namespace Lasting

variable {mark : History → Prop} (h : Lasting fun _ => mark)
include h

theorem always_pure (value : α) : (pure value : Flow α).Always mark := by
  intro history result hends
  obtain ⟨rfl, -⟩ := ends_pure_iff.mp hends
  exact h.nil true

theorem always_bind {flow : Flow α} {f : α → Flow β} (hflow : flow.Always mark)
    (hf : ∀ value, (f value).Always mark) : (flow >>= f).Always mark := by
  intro history result hends
  obtain ⟨front, back, value, rfl, hfront, hback⟩ := ends_bind_iff.mp hends
  exact @append _ h true _ _ (hflow _ _ hfront) (hf value _ _ hback)

end Lasting

theorem always_query {mark : History → Prop} {question : Ask}
    (hquestion : ∀ answer, mark [⟨question, answer⟩]) : (query question).Always mark := by
  intro history answer hends
  obtain rfl := ends_query_iff.mp hends
  exact hquestion answer

theorem traces_query {question : Ask} (hquestion : ∀ answer, trace true [⟨question, answer⟩]) :
    Traces holds trace
      (ExceptT.lift (StateT.lift (query question)) : ExceptT Fault (StateT σ Flow) _) := by
  intro state history result final hstate hends
  obtain ⟨answer, rfl, rfl, rfl⟩ := yields_query_iff.mp hends
  exact ⟨hstate, hquestion answer⟩

/-- What is done with the state need be known only for states in which the condition holds. -/
theorem traces_get_bind {f : σ → ExceptT Fault (StateT σ Flow) β}
    (hf : ∀ state, holds state → Traces holds trace (f state)) :
    Traces holds trace (get >>= f) := by
  intro state history result final hstate hends
  rw [yields_get_bind_iff] at hends
  exact hf state hstate _ _ _ _ hstate hends

/-- An activity on a part of the state leaves the trace that it leaves on the part. -/
theorem traces_focus {τ : Type} (part : σ → τ) (put : σ → τ → σ)
    (hput : ∀ state inner, part (put state inner) = inner) {condition : τ → Prop}
    {activity : ExceptT Fault (StateT τ Flow) α} (hactivity : Traces condition trace activity) :
    Traces (fun state => condition (part state)) trace (ExceptT.mk fun state => do
      let (result, inner) ← activity.run.run (part state)
      return (result, put state inner)) := by
  intro state history result final hstate hends
  obtain ⟨inner, hinner, rfl⟩ := (yields_focus_iff part put).mp hends
  show condition (part (put state inner)) ∧ trace result.isOk history
  rw [hput]
  exact hactivity _ _ _ _ hstate hinner

end Flow
end RecordGateway
