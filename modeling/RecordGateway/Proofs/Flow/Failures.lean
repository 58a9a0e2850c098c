import RecordGateway.Proofs.Flow.History

/-!
How activities fail. `FailsAs sort` says of an outcome that its fault, if it is one, is of a sort, and
`Keeps holds sort` says of an activity with a state that it does not leave the states in which something
holds and fails in no other way, whatever answers it gets. Both carry over to what activities are put
together to, so that the faults of a whole are those of the places where it throws.
-/

namespace RecordGateway

variable {α β σ : Type} {sort wider : Fault → Prop}

/-- The outcome is no fault, or one of a sort. -/
def FailsAs (sort : Fault → Prop) (outcome : Except Fault α) : Prop :=
  ∀ fault, outcome = .error fault → sort fault

theorem FailsAs.mono {outcome : Except Fault α} (h : FailsAs sort outcome)
    (hwider : ∀ fault, sort fault → wider fault) : FailsAs wider outcome :=
  fun fault hfault => hwider fault (h fault hfault)

theorem failsAs_ok (value : α) : FailsAs sort (.ok value) := by
  intro fault hfault
  cases hfault

theorem failsAs_error {fault : Fault} (hfault : sort fault) :
    FailsAs sort (.error fault : Except Fault α) := by
  rintro _ ⟨⟩
  exact hfault

theorem FailsAs.bind {outcome : Except Fault α} {f : α → Except Fault β}
    (houtcome : FailsAs sort outcome) (hf : ∀ value, FailsAs sort (f value)) :
    FailsAs sort (outcome >>= f) := by
  cases outcome with
  | ok value => exact hf value
  | error fault => exact failsAs_error (houtcome fault rfl)

theorem FailsAs.map {outcome : Except Fault α} (houtcome : FailsAs sort outcome) (f : α → β) :
    FailsAs sort (f <$> outcome) := by
  rw [map_eq_pure_bind]
  exact houtcome.bind fun value => failsAs_ok (f value)

theorem failsAs_mapM {f : α → Except Fault β} (hf : ∀ value, FailsAs sort (f value))
    (values : List α) : FailsAs sort (values.mapM f) := by
  induction values with
  | nil => exact failsAs_ok []
  | cons value values ih =>
      rw [List.mapM_cons]
      exact (hf value).bind fun _ => ih.bind fun _ => failsAs_ok _

/-- A check that refuses some input before going on. -/
theorem FailsAs.guard {refused : Prop} [Decidable refused] {fault : Fault}
    {go : Unit → Except Fault α} (hfault : sort fault) (hgo : FailsAs sort (go ())) :
    FailsAs sort (if refused then .error fault >>= go else go ()) := by
  split
  · exact failsAs_error hfault
  · exact hgo

namespace Flow

variable {holds : σ → Prop}

/-- From states in which something holds the activity leads to such states only, and it fails in no
other way. -/
def Keeps (holds : σ → Prop) (sort : Fault → Prop) (activity : ExceptT Fault (StateT σ Flow) α) :
    Prop :=
  ∀ state history result final, holds state → Yields activity state history result final →
    holds final ∧ FailsAs sort result

theorem Keeps.mono {activity : ExceptT Fault (StateT σ Flow) α} (h : Keeps holds sort activity)
    (hwider : ∀ fault, sort fault → wider fault) : Keeps holds wider activity := by
  intro state history result final hstate hends
  obtain ⟨hfinal, hresult⟩ := h state history result final hstate hends
  exact ⟨hfinal, hresult.mono hwider⟩

theorem keeps_pure (value : α) :
    Keeps holds sort (pure value : ExceptT Fault (StateT σ Flow) α) := by
  intro state history result final hstate h
  obtain ⟨rfl, rfl, rfl⟩ := yields_pure_iff.mp h
  exact ⟨hstate, failsAs_ok value⟩

theorem keeps_throw {fault : Fault} (hfault : sort fault) :
    Keeps holds sort (throw fault : ExceptT Fault (StateT σ Flow) α) := by
  intro state history result final hstate h
  obtain ⟨rfl, rfl, rfl⟩ := yields_throw_iff.mp h
  exact ⟨hstate, failsAs_error hfault⟩

theorem keeps_lift {outcome : Except Fault α} (houtcome : FailsAs sort outcome) :
    Keeps holds sort (liftM outcome : ExceptT Fault (StateT σ Flow) α) := by
  intro state history result final hstate h
  obtain ⟨rfl, rfl, rfl⟩ := yields_lift_iff.mp h
  exact ⟨hstate, houtcome⟩

theorem keeps_query (question : Ask) :
    Keeps holds sort
      (ExceptT.lift (StateT.lift (query question)) : ExceptT Fault (StateT σ Flow) _) := by
  intro state history result final hstate h
  obtain ⟨answer, rfl, rfl, rfl⟩ := yields_query_iff.mp h
  exact ⟨hstate, failsAs_ok answer⟩

theorem keeps_set {next : σ} (hnext : holds next) :
    Keeps holds sort (set next : ExceptT Fault (StateT σ Flow) PUnit) := by
  intro state history result final _ h
  obtain ⟨rfl, rfl, rfl⟩ := yields_set_iff.mp h
  exact ⟨hnext, failsAs_ok _⟩

theorem keeps_modify {change : σ → σ} (hchange : ∀ state, holds state → holds (change state)) :
    Keeps holds sort (modify change : ExceptT Fault (StateT σ Flow) PUnit) := by
  intro state history result final hstate h
  obtain ⟨rfl, rfl, rfl⟩ := yields_modify_iff.mp h
  exact ⟨hchange state hstate, failsAs_ok _⟩

theorem keeps_bind {activity : ExceptT Fault (StateT σ Flow) α}
    {f : α → ExceptT Fault (StateT σ Flow) β} (hactivity : Keeps holds sort activity)
    (hf : ∀ value, Keeps holds sort (f value)) : Keeps holds sort (activity >>= f) := by
  intro state history result final hstate h
  rcases yields_bind_iff.mp h with
    ⟨fault, hfault, rfl⟩ | ⟨front, back, value, middle, rfl, hfront, hback⟩
  · obtain ⟨hfinal, hresult⟩ := hactivity _ _ _ _ hstate hfault
    exact ⟨hfinal, failsAs_error (hresult fault rfl)⟩
  · obtain ⟨hmiddle, -⟩ := hactivity _ _ _ _ hstate hfront
    exact hf value _ _ _ _ hmiddle hback

/-- What is done with the state need be known only for states in which the condition holds. -/
theorem keeps_get_bind {f : σ → ExceptT Fault (StateT σ Flow) β}
    (hf : ∀ state, holds state → Keeps holds sort (f state)) : Keeps holds sort (get >>= f) := by
  intro state history result final hstate h
  rw [yields_get_bind_iff] at h
  exact hf state hstate _ _ _ _ hstate h

/-- An activity on a part of the state keeps what it keeps of the part. -/
theorem keeps_focus {τ : Type} (part : σ → τ) (put : σ → τ → σ)
    (hput : ∀ state inner, part (put state inner) = inner) {condition : τ → Prop}
    {activity : ExceptT Fault (StateT τ Flow) α} (hactivity : Keeps condition sort activity) :
    Keeps (fun state => condition (part state)) sort (ExceptT.mk fun state => do
      let (result, inner) ← activity.run.run (part state)
      return (result, put state inner)) := by
  intro state history result final hstate h
  obtain ⟨inner, hinner, rfl⟩ := (yields_focus_iff part put).mp h
  show condition (part (put state inner)) ∧ FailsAs sort result
  rw [hput]
  exact hactivity _ _ _ _ hstate hinner

end Flow
end RecordGateway
