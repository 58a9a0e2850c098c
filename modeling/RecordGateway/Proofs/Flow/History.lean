import RecordGateway.Session.Run

/-!
Histories of flows. A flow that ends has asked questions and got answers, and both together are its
history (`Flow.Ends`). A property of every history is a property of every behaviour of the clock,
the gateway, the refresher and the other activities: a session, for one, gives no result that some
history does not lead to, a history that cancels nothing without a scope (`Session.ends_of_run`), and
surroundings of any kind lead along some history to some result (`Flow.ends_runIn`).
-/

namespace RecordGateway

/-- A question and the answer that it got. -/
structure Event where
  question : Ask
  answer : question.Answer

/-- What was asked and answered, the first question first. -/
abbrev History := List Event

namespace Event

/-- Whether the event is the end of a wait for something that came. -/
def isArrival : Event → Bool
  | ⟨.wait .., waited⟩ => waited == Waited.arrived
  | _ => false

/-- Waits end because what is waited for has come. -/
def Prompt : Event → Prop
  | ⟨.wait .., waited⟩ => waited = Waited.arrived
  | _ => True

/-- Nothing that has no scope is ever cancelled. -/
def HonoursScope : Event → Prop
  | ⟨.isCancelled scope, cancelled⟩ => scope = .unlimited → cancelled = false
  | ⟨.wait _ limits, waited⟩ => limits.scope = .unlimited → waited ≠ Waited.cancelled
  | ⟨.credential limits, answer⟩ =>
    limits.scope = .unlimited → answer ≠ Credential.Answer.cancelled
  | _ => True

end Event

def arrivalCount (history : History) : Nat :=
  history.countP Event.isArrival

@[simp] theorem arrivalCount_append (front back : History) :
    arrivalCount (front ++ back) = arrivalCount front + arrivalCount back :=
  List.countP_append

/-- Surroundings answer each question, knowing what was asked before. -/
abbrev Surroundings := History → (question : Ask) → question.Answer

/-- Surroundings in which everything comes before a deadline or a cancellation. -/
def Surroundings.Prompt (surroundings : Surroundings) : Prop :=
  ∀ past due limits, surroundings past (.wait due limits) = Waited.arrived

namespace Flow

variable {α β σ : Type}

/-- A flow ends with a value after a history. -/
inductive Ends : Flow α → History → α → Prop where
  | done (value : α) : Ends (.done value) [] value
  | ask {question : Ask} {next : question.Answer → Flow α} {answer : question.Answer}
      {history : History} {value : α} :
      Ends (next answer) history value → Ends (.ask question next) (⟨question, answer⟩ :: history) value

theorem ends_done_iff {value result : α} {history : History} :
    (Flow.done value).Ends history result ↔ history = [] ∧ result = value := by
  constructor
  · rintro ⟨⟩
    exact ⟨rfl, rfl⟩
  · rintro ⟨rfl, rfl⟩
    exact .done _

theorem ends_pure_iff {value result : α} {history : History} :
    (pure value : Flow α).Ends history result ↔ history = [] ∧ result = value :=
  ends_done_iff

theorem ends_ask_iff {question : Ask} {next : question.Answer → Flow α} {history : History}
    {result : α} :
    (Flow.ask question next).Ends history result ↔
      ∃ answer rest, history = ⟨question, answer⟩ :: rest ∧ (next answer).Ends rest result := by
  constructor
  · intro h
    cases h with
    | ask h => exact ⟨_, _, rfl, h⟩
  · rintro ⟨answer, rest, rfl, h⟩
    exact .ask h

theorem ends_query_iff {question : Ask} {history : History} {answer : question.Answer} :
    (query question).Ends history answer ↔ history = [⟨question, answer⟩] := by
  constructor
  · intro h
    obtain ⟨given, rest, rfl, hrest⟩ := ends_ask_iff.mp h
    obtain ⟨rfl, rfl⟩ := ends_done_iff.mp hrest
    rfl
  · rintro rfl
    exact .ask (.done _)

/-- A flow that has ended asks nothing more. -/
theorem Ends.unique {flow : Flow α} {front more : History} {value result : α} (h : flow.Ends front value)
    (hmore : flow.Ends (front ++ more) result) : more = [] ∧ value = result := by
  induction h with
  | done value =>
      obtain ⟨rfl, rfl⟩ := ends_done_iff.mp hmore
      exact ⟨rfl, rfl⟩
  | ask _ ih =>
      cases hmore with
      | ask hmore => exact ih hmore

/-- One activity after the other has one history after the other. -/
theorem ends_bind_iff {flow : Flow α} {f : α → Flow β} {history : History} {result : β} :
    (flow >>= f).Ends history result ↔
      ∃ front back value, history = front ++ back ∧ flow.Ends front value ∧
        (f value).Ends back result := by
  induction flow generalizing history with
  | done value =>
      rw [done_bind]
      constructor
      · exact fun h => ⟨[], history, value, rfl, .done _, h⟩
      · rintro ⟨front, back, given, rfl, hfront, hback⟩
        obtain ⟨rfl, rfl⟩ := ends_done_iff.mp hfront
        exact hback
  | ask question next ih =>
      rw [ask_bind, ends_ask_iff]
      constructor
      · rintro ⟨answer, rest, rfl, h⟩
        obtain ⟨front, back, value, rfl, hfront, hback⟩ := (ih answer).mp h
        exact ⟨_ :: front, back, value, rfl, .ask hfront, hback⟩
      · rintro ⟨front, back, value, rfl, hfront, hback⟩
        obtain ⟨answer, rest, rfl, hrest⟩ := ends_ask_iff.mp hfront
        exact ⟨answer, rest ++ back, rfl, (ih answer).mpr ⟨rest, back, value, rfl, hrest, hback⟩⟩

theorem ends_query_bind_iff {question : Ask} {f : question.Answer → Flow β} {history : History}
    {result : β} :
    (query question >>= f).Ends history result ↔
      ∃ answer rest, history = ⟨question, answer⟩ :: rest ∧ (f answer).Ends rest result :=
  ends_ask_iff

/-! ### Activities that can fail -/

theorem ends_run_bind_iff {making : ExceptT Fault Flow α} {f : α → ExceptT Fault Flow β}
    {history : History} {result : Except Fault β} :
    (making >>= f).run.Ends history result ↔
      (∃ fault, making.run.Ends history (.error fault) ∧ result = .error fault) ∨
      ∃ front back value, history = front ++ back ∧ making.run.Ends front (.ok value) ∧
        (f value).run.Ends back result := by
  rw [ExceptT.run_bind, ends_bind_iff]
  constructor
  · rintro ⟨front, back, middle, rfl, hfront, hback⟩
    cases middle with
    | error fault =>
        obtain ⟨rfl, rfl⟩ := ends_pure_iff.mp hback
        exact .inl ⟨fault, by rwa [List.append_nil], rfl⟩
    | ok value => exact .inr ⟨front, back, value, rfl, hfront, hback⟩
  · rintro (⟨fault, h, rfl⟩ | ⟨front, back, value, rfl, hfront, hback⟩)
    · exact ⟨history, [], .error fault, by rw [List.append_nil], h, .done _⟩
    · exact ⟨front, back, .ok value, rfl, hfront, hback⟩

theorem ends_run_lift_iff {outcome result : Except Fault α} {history : History} :
    (liftM outcome : ExceptT Fault Flow α).run.Ends history result ↔
      history = [] ∧ result = outcome := by
  cases outcome <;> exact ends_pure_iff

theorem ends_run_query_bind_iff {question : Ask} {f : question.Answer → ExceptT Fault Flow β}
    {history : History} {result : Except Fault β} :
    (ExceptT.lift (query question) >>= f).run.Ends history result ↔
      ∃ answer rest, history = ⟨question, answer⟩ :: rest ∧ (f answer).run.Ends rest result :=
  ends_ask_iff

/-- An activity that can fail and keeps a state, from one state to another after a history. -/
abbrev Yields (activity : ExceptT Fault (StateT σ Flow) α) (state : σ) (history : History)
    (result : Except Fault α) (final : σ) : Prop :=
  (activity.run.run state).Ends history (result, final)

theorem yields_pure_iff {value : α} {state final : σ} {history : History}
    {result : Except Fault α} :
    Yields (pure value) state history result final ↔
      history = [] ∧ result = .ok value ∧ final = state := by
  rw [← Prod.mk.injEq]
  exact ends_pure_iff

theorem yields_throw_iff {fault : Fault} {state final : σ} {history : History}
    {result : Except Fault α} :
    Yields (throw fault) state history result final ↔
      history = [] ∧ result = .error fault ∧ final = state := by
  rw [← Prod.mk.injEq]
  exact ends_pure_iff

theorem yields_lift_iff {outcome : Except Fault α} {state final : σ} {history : History}
    {result : Except Fault α} :
    Yields (liftM outcome) state history result final ↔
      history = [] ∧ result = outcome ∧ final = state := by
  cases outcome with
  | error fault => exact yields_throw_iff
  | ok value => exact yields_pure_iff

theorem yields_throw_bind_iff {fault : Fault} {f : α → ExceptT Fault (StateT σ Flow) β}
    {state final : σ} {history : History} {result : Except Fault β} :
    Yields (throw fault >>= f) state history result final ↔
      history = [] ∧ result = .error fault ∧ final = state :=
  yields_throw_iff

theorem yields_set_iff {state next final : σ} {history : History} {result : Except Fault PUnit} :
    Yields (set next) state history result final ↔
      history = [] ∧ result = .ok ⟨⟩ ∧ final = next := by
  rw [← Prod.mk.injEq]
  exact ends_pure_iff

theorem yields_modify_iff {state final : σ} {change : σ → σ} {history : History}
    {result : Except Fault PUnit} :
    Yields (modify change) state history result final ↔
      history = [] ∧ result = .ok ⟨⟩ ∧ final = change state := by
  rw [← Prod.mk.injEq]
  exact ends_pure_iff

theorem yields_query_iff {question : Ask} {state final : σ} {history : History}
    {result : Except Fault question.Answer} :
    Yields (ExceptT.lift (StateT.lift (query question))) state history result final ↔
      ∃ answer, history = [⟨question, answer⟩] ∧ result = .ok answer ∧ final = state := by
  constructor
  · intro h
    obtain ⟨answer, rest, rfl, hrest⟩ := ends_ask_iff.mp h
    obtain ⟨rfl, hvalue⟩ := ends_done_iff.mp hrest
    obtain ⟨rfl, rfl⟩ := Prod.mk.inj hvalue
    exact ⟨answer, rfl, rfl, rfl⟩
  · rintro ⟨answer, rfl, rfl, rfl⟩
    exact .ask (.done _)

/-- A step that fails ends the activity in the state that it came to. -/
theorem yields_bind_iff {activity : ExceptT Fault (StateT σ Flow) α}
    {f : α → ExceptT Fault (StateT σ Flow) β} {state final : σ} {history : History}
    {result : Except Fault β} :
    Yields (activity >>= f) state history result final ↔
      (∃ fault, Yields activity state history (.error fault) final ∧ result = .error fault) ∨
      ∃ front back value middle, history = front ++ back ∧
        Yields activity state front (.ok value) middle ∧
        Yields (f value) middle back result final := by
  rw [Yields, ExceptT.run_bind, StateT.run_bind, ends_bind_iff]
  constructor
  · rintro ⟨front, back, ⟨outcome, middle⟩, rfl, hfront, hback⟩
    cases outcome with
    | error fault =>
        obtain ⟨rfl, hpair⟩ := ends_pure_iff.mp hback
        obtain ⟨rfl, rfl⟩ := Prod.mk.inj hpair
        exact .inl ⟨fault, by rwa [List.append_nil], rfl⟩
    | ok value => exact .inr ⟨front, back, value, middle, rfl, hfront, hback⟩
  · rintro (⟨fault, h, rfl⟩ | ⟨front, back, value, middle, rfl, hfront, hback⟩)
    · exact ⟨history, [], (.error fault, final), by rw [List.append_nil], h, .done _⟩
    · exact ⟨front, back, (.ok value, middle), rfl, hfront, hback⟩

theorem yields_get_bind_iff {f : σ → ExceptT Fault (StateT σ Flow) β} {state final : σ}
    {history : History} {result : Except Fault β} :
    Yields (get >>= f) state history result final ↔ Yields (f state) state history result final :=
  Iff.rfl

theorem yields_set_bind_iff {f : PUnit → ExceptT Fault (StateT σ Flow) β} {state next final : σ}
    {history : History} {result : Except Fault β} :
    Yields (set next >>= f) state history result final ↔ Yields (f ⟨⟩) next history result final :=
  Iff.rfl

theorem yields_modify_bind_iff {change : σ → σ} {f : PUnit → ExceptT Fault (StateT σ Flow) β}
    {state final : σ} {history : History} {result : Except Fault β} :
    Yields (modify change >>= f) state history result final ↔
      Yields (f ⟨⟩) (change state) history result final :=
  Iff.rfl

theorem yields_query_bind_iff {question : Ask}
    {f : question.Answer → ExceptT Fault (StateT σ Flow) β} {state final : σ} {history : History}
    {result : Except Fault β} :
    Yields (ExceptT.lift (StateT.lift (query question)) >>= f) state history result final ↔
      ∃ answer rest, history = ⟨question, answer⟩ :: rest ∧
        Yields (f answer) state rest result final :=
  ends_ask_iff

/-- An activity on a part of the state leaves the rest of the state as it is. -/
theorem yields_focus_iff {τ : Type} (part : σ → τ) (put : σ → τ → σ)
    {activity : ExceptT Fault (StateT τ Flow) α} {state final : σ} {history : History}
    {result : Except Fault α} :
    Yields (ExceptT.mk fun state => do
        let (result, inner) ← activity.run.run (part state)
        return (result, put state inner)) state history result final ↔
      ∃ inner, Yields activity (part state) history result inner ∧ final = put state inner := by
  change (activity.run.run (part state) >>= fun answer =>
    pure (answer.1, put state answer.2)).Ends history (result, final) ↔ _
  rw [ends_bind_iff]
  constructor
  · rintro ⟨front, back, ⟨given, inner⟩, rfl, hfront, hback⟩
    obtain ⟨rfl, hpair⟩ := ends_pure_iff.mp hback
    obtain ⟨rfl, rfl⟩ := Prod.mk.inj hpair
    exact ⟨inner, by rwa [List.append_nil], rfl⟩
  · rintro ⟨inner, h, rfl⟩
    exact ⟨history, [], (result, inner), by rw [List.append_nil], h, .done _⟩

/-! ### Surroundings -/

/-- What a flow ends with in given surroundings, and its history after what was asked before. -/
def runIn (surroundings : Surroundings) : History → Flow α → α × History
  | past, .done value => (value, past)
  | past, .ask question next =>
    let answer := surroundings past question
    (next answer).runIn surroundings (past ++ [⟨question, answer⟩])

/-- Whatever the surroundings are, a flow comes to an end in them, and what holds of all that they
answer holds of every event of its history. -/
theorem ends_runIn_where {P : Event → Prop} (surroundings : Surroundings)
    (hanswers : ∀ past question, P ⟨question, surroundings past question⟩) (flow : Flow α)
    (past : History) :
    ∃ history, (flow.runIn surroundings past).2 = past ++ history ∧ (∀ event ∈ history, P event) ∧
      flow.Ends history (flow.runIn surroundings past).1 := by
  induction flow generalizing past with
  | done value => exact ⟨[], (List.append_nil past).symm, by simp, .done value⟩
  | ask question next ih =>
      obtain ⟨rest, hpast, hrest, hends⟩ := ih (surroundings past question)
        (past ++ [⟨question, surroundings past question⟩])
      refine ⟨⟨question, surroundings past question⟩ :: rest, ?_, ?_, .ask hends⟩
      · rw [runIn, hpast, List.append_assoc]
        rfl
      · rw [List.forall_mem_cons]
        exact ⟨hanswers past question, hrest⟩

theorem ends_runIn (surroundings : Surroundings) (flow : Flow α) (past : History) :
    ∃ history, (flow.runIn surroundings past).2 = past ++ history ∧
      flow.Ends history (flow.runIn surroundings past).1 := by
  obtain ⟨history, hpast, -, hends⟩ :=
    ends_runIn_where (P := fun _ => True) surroundings (fun _ _ => trivial) flow past
  exact ⟨history, hpast, hends⟩

/-- In prompt surroundings every wait of the history is for something that comes. -/
theorem ends_runIn_prompt (surroundings : Surroundings) (hprompt : surroundings.Prompt)
    (flow : Flow α) (past : History) :
    ∃ history, (∀ event ∈ history, event.Prompt) ∧
      flow.Ends history (flow.runIn surroundings past).1 := by
  have hanswers : ∀ past question, Event.Prompt ⟨question, surroundings past question⟩ := by
    intro past question
    cases question with
    | wait due limits => exact hprompt past due limits
    | _ => trivial
  obtain ⟨history, -, hall, hends⟩ := ends_runIn_where surroundings hanswers flow past
  exact ⟨history, hall, hends⟩

theorem yields_runIn (surroundings : Surroundings) (activity : ExceptT Fault (StateT σ Flow) α)
    (state : σ) (past : History) :
    let ran := ((activity.run.run state).runIn surroundings past).1
    ∃ history, Yields activity state history ran.1 ran.2 := by
  intro ran
  obtain ⟨history, -, hends⟩ := ends_runIn surroundings (activity.run.run state) past
  exact ⟨history, hends⟩

theorem yields_runIn_prompt (surroundings : Surroundings) (hprompt : surroundings.Prompt)
    (activity : ExceptT Fault (StateT σ Flow) α) (state : σ) (past : History) :
    let ran := ((activity.run.run state).runIn surroundings past).1
    ∃ history, (∀ event ∈ history, event.Prompt) ∧ Yields activity state history ran.1 ran.2 := by
  intro ran
  obtain ⟨history, hall, hends⟩ :=
    ends_runIn_prompt surroundings hprompt (activity.run.run state) past
  exact ⟨history, hall, hends⟩

/-- What a flow ends with undisturbed, it ends with after a history in which everything comes that is
waited for. -/
theorem ends_undisturbed (flow : Flow α) :
    ∃ history, (∀ event ∈ history, event.Prompt) ∧ flow.Ends history flow.undisturbed := by
  induction flow with
  | done value => exact ⟨[], by simp, .done value⟩
  | ask question next ih =>
      obtain ⟨history, hprompt, hends⟩ := ih (calmAnswer question)
      refine ⟨⟨question, calmAnswer question⟩ :: history, ?_, .ask hends⟩
      rw [List.forall_mem_cons]
      refine ⟨?_, hprompt⟩
      cases question <;> trivial

end Flow

/-! ### Sessions -/

/-- A reader of the token is never told of a cancellation by the refresher. -/
theorem Credential.Refresher.look_ne_cancelled (refresher : Credential.Refresher) (now : Time) :
    (refresher.look now).1 ≠ some .cancelled := by
  unfold look
  dsimp only
  cases refresher.holding with
  | ready token =>
      by_cases hexpired : token.isExpired now = true
      · simp only [if_pos hexpired]
        cases refresher.phase <;> simp
      · simp only [if_neg hexpired]
        simp
  | failed reason => simp
  | pending => cases refresher.phase <;> simp

namespace Session

variable {α : Type} {session next final : Session} {seen : Option Nat} {question : Ask}
  {answer : question.Answer}

theorem honoursScope_of_poll (h : session.poll seen question = .answered answer next) :
    (⟨question, answer⟩ : Event).HonoursScope := by
  cases question with
  | isCancelled scope =>
      rintro rfl
      cases h
      rfl
  | wait due limits =>
      intro hscope hcancelled
      have hend : session.waitEnd? due limits = some .cancelled := by
        rw [poll] at h
        split at h
        · next waited hwaited =>
            cases h
            rw [hwaited, hcancelled]
        · cases h
      have hopen : session.scopeCancelled limits.scope = false := by
        rw [hscope]
        rfl
      rw [waitEnd?, hopen] at hend
      grind
  | credential limits =>
      intro hscope hcancelled
      have hopen : session.scopeCancelled limits.scope = false := by
        rw [hscope]
        rfl
      rw [hcancelled, poll, pollCredential, hopen] at h
      have hlook := fun refresher => Credential.Refresher.look_ne_cancelled refresher session.now
      grind
  | _ => trivial

/-- What ends a wait is an answer that the question gets in some state of the session. -/
theorem poll_of_waitFor {limit now : Time}
    (h : session.waitFor limit now seen question = (some answer, final)) :
    ∃ (reached next : Session) (seen : Option Nat),
      reached.poll seen question = .answered answer next := by
  fun_induction Session.waitFor limit now session seen question with
  | case1 _ _ _ _ _ hpoll =>
      obtain rfl := Option.some.inj (Prod.mk.inj h).1
      exact ⟨_, _, _, hpoll⟩
  | case3 _ _ _ _ _ _ _ _ _ hpoll =>
      obtain rfl := Option.some.inj (Prod.mk.inj h).1
      exact ⟨_, _, _, hpoll⟩
  | case6 _ _ _ _ _ _ _ _ _ _ _ _ _ ih => exact ih h
  | _ => cases (Prod.mk.inj h).1

/-- What a session gives as the result of a flow is what some history leads to, and in it nothing
without a scope is cancelled. -/
theorem ends_of_run {flow : Flow α} {value : α} (hrun : session.run flow = (some value, final)) :
    ∃ history, flow.Ends history value ∧ ∀ event ∈ history, event.HonoursScope := by
  have until_ends : ∀ (limit : Time) (flow : Flow α) (session final : Session),
      session.runUntil limit flow = (some value, final) →
        ∃ history, flow.Ends history value ∧ ∀ event ∈ history, event.HonoursScope := by
    intro limit flow
    induction flow with
    | done given =>
        intro session final h
        obtain rfl : given = value := by simpa [runUntil] using congrArg Prod.fst h
        exact ⟨[], .done _, by simp⟩
    | ask question next ih =>
        intro session final h
        rw [runUntil] at h
        split at h
        · next answer middle hwait =>
            obtain ⟨_, _, _, hpoll⟩ := poll_of_waitFor hwait
            obtain ⟨history, hends, hhonours⟩ := ih answer middle final h
            refine ⟨⟨question, answer⟩ :: history, .ask hends, ?_⟩
            rw [List.forall_mem_cons]
            exact ⟨honoursScope_of_poll hpoll, hhonours⟩
        · simp at h
  exact until_ends _ flow session final hrun

end Session
end RecordGateway
