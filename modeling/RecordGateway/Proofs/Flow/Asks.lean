import RecordGateway.FrameReader
import RecordGateway.Proofs.Flow.History

/-!
What activities ask. `Asks allowed` says that a flow asks nothing but what is allowed, whatever answers it
gets, and what two activities ask, one does that carries them out after each other. Reading an answer
asks for the time and waits, and so stays on this side (`asks_readGroup`).
-/

namespace RecordGateway

/-- Whether a question stays on this side: it hands nothing over and puts nothing on a queue. -/
def Ask.IsLocal : Ask → Prop
  | .send _ | .openStream _ | .offer .. => False
  | _ => True

/-- Whether a question leaves the queues of all sets as they are. -/
def Ask.KeepsQueues : Ask → Prop
  | .offer .. => False
  | _ => True

theorem Ask.IsLocal.keepsQueues {question : Ask} (h : question.IsLocal) : question.KeepsQueues := by
  cases question with
  | offer => exact h.elim
  | _ => trivial

namespace Flow

variable {α β σ : Type} {allowed : Ask → Prop}

/-- All that the flow asks is allowed. -/
def Asks (allowed : Ask → Prop) (flow : Flow α) : Prop :=
  ∀ history value, flow.Ends history value → ∀ event ∈ history, allowed event.question

theorem Asks.mono {flow : Flow α} {wider : Ask → Prop} (h : flow.Asks allowed)
    (hwider : ∀ question, allowed question → wider question) : flow.Asks wider :=
  fun history value hends event hmem => hwider _ (h history value hends event hmem)

theorem asks_pure (value : α) : (pure value : Flow α).Asks allowed := by
  intro history result h event hmem
  obtain ⟨rfl, -⟩ := ends_pure_iff.mp h
  cases hmem

theorem asks_query {question : Ask} (hquestion : allowed question) :
    (query question).Asks allowed := by
  intro history result h event hmem
  obtain rfl := ends_query_iff.mp h
  obtain rfl := List.mem_singleton.mp hmem
  exact hquestion

theorem asks_bind {flow : Flow α} {f : α → Flow β} (hflow : flow.Asks allowed)
    (hf : ∀ value, (f value).Asks allowed) : (flow >>= f).Asks allowed := by
  intro history result h event hmem
  obtain ⟨front, back, value, rfl, hfront, hback⟩ := ends_bind_iff.mp h
  rcases List.mem_append.mp hmem with hmem | hmem
  · exact hflow _ _ hfront event hmem
  · exact hf value _ _ hback event hmem

theorem asks_run_query {question : Ask} (hquestion : allowed question) :
    (ExceptT.lift (query question) : ExceptT Fault Flow _).run.Asks allowed := by
  intro history result h event hmem
  obtain ⟨front, back, answer, rfl, hfront, hback⟩ := ends_bind_iff.mp h
  obtain rfl := ends_query_iff.mp hfront
  obtain ⟨rfl, -⟩ := ends_pure_iff.mp hback
  obtain rfl := List.mem_singleton.mp hmem
  exact hquestion

theorem asks_run_bind {making : ExceptT Fault Flow α} {f : α → ExceptT Fault Flow β}
    (hmaking : making.run.Asks allowed) (hf : ∀ value, (f value).run.Asks allowed) :
    (making >>= f).run.Asks allowed := by
  intro history result h event hmem
  rcases ends_run_bind_iff.mp h with ⟨fault, hfault, -⟩ | ⟨front, back, value, rfl, hfront, hback⟩
  · exact hmaking _ _ hfault event hmem
  · rcases List.mem_append.mp hmem with hmem | hmem
    · exact hmaking _ _ hfront event hmem
    · exact hf value _ _ hback event hmem

/-- A pause asks for the time and waits. -/
theorem asks_sleep (span : Time) : (sleep span).Asks Ask.IsLocal := by
  intro history result h event hmem
  obtain ⟨now, rest, rfl, hrest⟩ := ends_ask_iff.mp h
  obtain ⟨waited, last, rfl, hlast⟩ := ends_ask_iff.mp hrest
  obtain ⟨rfl, -⟩ := ends_pure_iff.mp hlast
  rcases List.mem_cons.mp hmem with rfl | hmem
  · trivial
  · obtain rfl := List.mem_singleton.mp hmem
    trivial

/-! ### Activities with a state -/

def ActivityAsks (allowed : Ask → Prop) (activity : ExceptT Fault (StateT σ Flow) α) : Prop :=
  ∀ state, (activity.run.run state).Asks allowed

theorem activityAsks_query {question : Ask} (hquestion : allowed question) :
    ActivityAsks allowed
      (ExceptT.lift (StateT.lift (query question)) : ExceptT Fault (StateT σ Flow) _) := by
  intro state history result h event hmem
  obtain ⟨answer, rfl, -⟩ := yields_query_iff.mp h
  obtain rfl := List.mem_singleton.mp hmem
  exact hquestion

theorem activityAsks_bind {activity : ExceptT Fault (StateT σ Flow) α}
    {f : α → ExceptT Fault (StateT σ Flow) β} (hactivity : ActivityAsks allowed activity)
    (hf : ∀ value, ActivityAsks allowed (f value)) : ActivityAsks allowed (activity >>= f) := by
  rintro state history ⟨result, final⟩ h event hmem
  rcases yields_bind_iff.mp h with
    ⟨fault, hfault, -⟩ | ⟨front, back, value, middle, rfl, hfront, hback⟩
  · exact hactivity _ _ _ hfault event hmem
  · rcases List.mem_append.mp hmem with hmem | hmem
    · exact hactivity _ _ _ hfront event hmem
    · exact hf value _ _ _ hback event hmem

/-- What is decided from the state alone asks nothing. -/
theorem activityAsks_silent {activity : ExceptT Fault (StateT σ Flow) α}
    (h : ∀ state, ∃ value, activity.run.run state = pure value) : ActivityAsks allowed activity := by
  intro state
  obtain ⟨value, hvalue⟩ := h state
  rw [hvalue]
  exact asks_pure value

theorem activityAsks_pure (value : α) :
    ActivityAsks allowed (pure value : ExceptT Fault (StateT σ Flow) α) :=
  activityAsks_silent fun _ => ⟨_, rfl⟩

theorem activityAsks_throw (fault : Fault) :
    ActivityAsks allowed (throw fault : ExceptT Fault (StateT σ Flow) α) :=
  activityAsks_silent fun _ => ⟨_, rfl⟩

theorem activityAsks_lift (outcome : Except Fault α) :
    ActivityAsks allowed (liftM outcome : ExceptT Fault (StateT σ Flow) α) := by
  cases outcome with
  | ok value => exact activityAsks_pure value
  | error fault => exact activityAsks_throw fault

theorem activityAsks_get : ActivityAsks allowed (get : ExceptT Fault (StateT σ Flow) σ) :=
  activityAsks_silent fun _ => ⟨_, rfl⟩

theorem activityAsks_set (state : σ) :
    ActivityAsks allowed (set state : ExceptT Fault (StateT σ Flow) PUnit) :=
  activityAsks_silent fun _ => ⟨_, rfl⟩

theorem activityAsks_modify (change : σ → σ) :
    ActivityAsks allowed (modify change : ExceptT Fault (StateT σ Flow) PUnit) :=
  activityAsks_silent fun _ => ⟨_, rfl⟩

end Flow

namespace FrameReader

open RecordGateway.Flow

/-! ### Reading an answer -/

theorem asks_waitForFrame : ActivityAsks Ask.IsLocal waitForFrame := by
  unfold waitForFrame
  refine activityAsks_bind activityAsks_get fun reader => ?_
  have hwait : ∀ due : Option Time, ActivityAsks Ask.IsLocal (do
      set { reader with stream := { reader.stream with due } }
      ask (.wait due reader.limits)) := fun due =>
    activityAsks_bind (activityAsks_set _) fun _ => activityAsks_query trivial
  dsimp only
  split
  · exact hwait _
  · exact hwait _
  · exact activityAsks_bind (activityAsks_query trivial) fun now => hwait _

theorem asks_takeFrame : ActivityAsks Ask.IsLocal takeFrame := by
  unfold takeFrame
  refine activityAsks_bind activityAsks_get fun reader => ?_
  split
  · exact activityAsks_throw _
  · exact activityAsks_bind (activityAsks_set _) fun _ => activityAsks_throw _
  · dsimp only
    split
    · refine activityAsks_bind (activityAsks_set _) fun _ => ?_
      exact activityAsks_bind (activityAsks_throw _) fun _ => activityAsks_set _
    · exact activityAsks_set _

theorem asks_nextFrame : ActivityAsks Ask.IsLocal nextFrame := by
  unfold nextFrame
  refine activityAsks_bind activityAsks_get fun reader => ?_
  split
  · exact activityAsks_pure _
  · refine activityAsks_bind asks_waitForFrame fun waited => ?_
    cases waited with
    | cancelled => exact activityAsks_throw _
    | timedOut => exact activityAsks_bind activityAsks_get fun _ => activityAsks_throw _
    | arrived => exact activityAsks_bind asks_takeFrame fun _ => activityAsks_pure _

theorem asks_fillFrom (enough : Bytes → Bool) (fuel : Nat) :
    ActivityAsks Ask.IsLocal (fillFrom enough fuel) := by
  induction fuel with
  | zero => exact activityAsks_pure _
  | succ fuel ih =>
      refine activityAsks_bind activityAsks_get fun reader => ?_
      split
      · exact activityAsks_pure _
      · refine activityAsks_bind asks_nextFrame fun more => ?_
        cases more with
        | true => exact ih
        | false => exact activityAsks_pure _

theorem asks_fill (enough : Bytes → Bool) : ActivityAsks Ask.IsLocal (fill enough) :=
  activityAsks_bind activityAsks_get fun _ => asks_fillFrom _ _

theorem asks_readExact (count : Nat) : ActivityAsks Ask.IsLocal (readExact count) := by
  unfold readExact
  refine activityAsks_bind (asks_fill _) fun filled => ?_
  refine activityAsks_bind activityAsks_get fun reader => ?_
  split
  · exact activityAsks_bind (activityAsks_set _) fun _ => activityAsks_pure _
  · exact activityAsks_throw _

theorem asks_atEnd : ActivityAsks Ask.IsLocal atEnd := by
  unfold atEnd
  refine activityAsks_bind (asks_fill _) fun filled => ?_
  exact activityAsks_pure _

theorem asks_readGroup : ActivityAsks Ask.IsLocal readGroup := by
  unfold readGroup
  refine activityAsks_bind asks_atEnd fun ended => ?_
  split
  · exact activityAsks_pure _
  · refine activityAsks_bind (asks_readExact _) fun announced => ?_
    refine activityAsks_bind (activityAsks_lift _) fun header => ?_
    refine activityAsks_bind (asks_readExact _) fun packed => ?_
    exact activityAsks_bind (activityAsks_lift _) fun body => activityAsks_pure _

end FrameReader
end RecordGateway
