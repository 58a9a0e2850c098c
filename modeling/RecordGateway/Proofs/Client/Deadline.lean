import RecordGateway.Proofs.Client.Execution
import RecordGateway.Proofs.Session.Timing

/-!
When the requests of a command are handed over. An attempt ends in time, but the pause before the next one is
not part of it: whether another attempt may follow is decided before the pause (`attempts_pauses`). So a
request is handed over late only behind a pause that reaches beyond the time that the whole command has, or
at the last moment, to which the client may have waited for its token (`handed_late_iff`).
-/

namespace RecordGateway

/-- Of two stretches, an event stands in the one or behind it in the other. -/
theorem split_at {α : Type} {before later asked back : List α} {event : α}
    (h : before ++ event :: later = asked ++ back) :
    (∃ rest, asked = before ++ event :: rest) ∨
      ∃ middle, before = asked ++ middle ∧ back = middle ++ event :: later := by
  rcases List.append_eq_append_iff.mp h with ⟨rest, rfl, hback⟩ | ⟨middle, rfl, hback⟩
  · cases rest with
    | nil => exact .inr ⟨[], by simp, hback.symm⟩
    | cons first rest =>
        obtain ⟨rfl, -⟩ := List.cons.inj hback
        exact .inl ⟨rest, rfl⟩
  · exact .inr ⟨middle, rfl, hback⟩

/-- Of two stretches, the first one breaks off in the other, or covers it. -/
theorem cut_at {α : Type} {front back asked rest : List α} (h : front ++ back = asked ++ rest) :
    (∃ open_, open_ ≠ [] ∧ asked = front ++ open_ ∧ back = open_ ++ rest) ∨
      ∃ middle, front = asked ++ middle ∧ rest = middle ++ back := by
  rcases List.append_eq_append_iff.mp h with ⟨middle, rfl, hback⟩ | hcovers
  · by_cases hnothing : middle = []
    · obtain rfl := hnothing
      exact .inr ⟨[], by simp, hback.symm⟩
    · exact .inl ⟨middle, hnothing, rfl, hback⟩
  · exact .inr hcovers

/-- What stands before something that is not in the front stands behind the front. -/
theorem split_behind {front before back later : History} {event : Event}
    (hfront : ∀ event ∈ front, event.question.IsLocal) (hevent : ¬ event.question.IsLocal)
    (h : before ++ event :: later = front ++ back) :
    ∃ middle, before = front ++ middle ∧ back = middle ++ event :: later := by
  rcases split_at h with ⟨rest, rfl⟩ | hbehind
  · exact absurd (hfront event (List.mem_append_right _ List.mem_cons_self)) hevent
  · exact hbehind

/-- Another attempt may follow, but the pause before it reaches to the limit or beyond it. -/
def Attempt.Oversleeps (attempt : Attempt) (client : Client) (command : Command) (limit : Time) : Prop :=
  attempt.Repeatable client command (some limit) ∧ ∃ reviewed, attempt.reviewed = some reviewed ∧
    limit ≤ reviewed + command.policy.sleepBetweenRetries

namespace Client

open RecordGateway.Flow Session

variable {client : Client} {command : Command} {method : Method} {request : Envelope.Request}
  {payload : Bytes} {id : UInt32} {limits : Limits} {history : History} {total : Option Time}
  {retries iteration : Nat} {doubt : Bool}

/-! ### Before the request -/

/-- What a client asks before it hands a request over: the time, a token if it has to prove who it is, and
whether the call is cancelled. -/
inductive Lead (limits : Limits) : History → Prop where
  | plain {began now : Time} :
      Lead limits [⟨.clock, began⟩, ⟨.clock, now⟩, ⟨.isCancelled limits.scope, false⟩]
  | proven {began now : Time} {text : String} :
      Lead limits [⟨.clock, began⟩, ⟨.clock, now⟩, ⟨.credential limits, Credential.Answer.token text⟩,
        ⟨.isCancelled limits.scope, false⟩]

theorem lead_of_prepare {call : Call} (began : Time)
    (h : (client.prepare method request limits).run.Ends history (.ok call)) :
    Lead limits (⟨.clock, began⟩ :: (history ++ [⟨.isCancelled limits.scope, false⟩])) := by
  unfold prepare at h
  obtain ⟨now, rest, rfl, hrest⟩ := ends_run_query_bind_iff.mp h
  dsimp only at hrest
  split at hrest
  · obtain ⟨-, hfault⟩ := ends_pure_iff.mp hrest
    cases hfault
  · rcases ends_run_bind_iff.mp hrest with ⟨_, -, hfault⟩ | ⟨proof, last, given, rfl, hproof, hlast⟩
    · cases hfault
    obtain ⟨rfl, -⟩ := ends_pure_iff.mp hlast
    unfold authorization at hproof
    split at hproof
    · obtain ⟨rfl, -⟩ := ends_pure_iff.mp hproof
      exact .plain
    · obtain ⟨answer, silent, rfl, hsilent⟩ := ends_run_query_bind_iff.mp hproof
      cases answer with
      | token text =>
          dsimp only at hsilent
          split at hsilent
          · obtain ⟨-, hfault⟩ := ends_pure_iff.mp hsilent
            cases hfault
          · obtain ⟨rfl, -⟩ := ends_pure_iff.mp hsilent
            exact .proven
      | _ =>
          obtain ⟨-, hfault⟩ := ends_pure_iff.mp hsilent
          cases hfault

theorem Lead.isLocal (h : Lead limits history) : ∀ event ∈ history, event.question.IsLocal := by
  cases h <;> simp [Ask.IsLocal]

theorem not_isLocal_send (call : Call) : ¬ (Ask.send call).IsLocal := fun h => h

theorem unary_lead {received : Except Fault Envelope.Response} (began : Time)
    (h : (client.unary method request limits).run.Ends history received) :
    (∀ event ∈ history, event.question.IsLocal) ∨
      ∃ lead call reply back, ⟨.clock, began⟩ :: history = lead ++ ⟨.send call, reply⟩ :: back ∧
        Lead limits lead := by
  unfold unary at h
  rcases ends_run_bind_iff.mp h with
    ⟨fault, hprepare, -⟩ | ⟨preparing, exchanging, call, rfl, hprepare, hexchange⟩
  · exact .inl (asks_prepare _ _ hprepare)
  cases exchange_cases hexchange with
  | refused =>
      refine .inl (List.forall_mem_append.mpr ⟨asks_prepare _ _ hprepare, ?_⟩)
      exact List.forall_mem_singleton.mpr trivial
  | waited hhand _ =>
      obtain rfl := ends_query_iff.mp hhand
      exact .inr ⟨_, call, _, _, congrArg (List.cons _) (List.append_cons preparing _ _),
        lead_of_prepare began hprepare⟩

theorem attempt_lead {outcome : Except Fault Command.Output}
    (h : (client.attempt command payload id iteration total).run.Ends history outcome) :
    (∀ event ∈ history, event.question.IsLocal) ∨
      ∃ began lead call reply back, history = lead ++ ⟨.send call, reply⟩ :: back ∧
        Lead { deadline := command.policy.attemptDeadline began total
               scope := client.scope
               isWrite := command.isWrite } lead := by
  unfold attempt at h
  obtain ⟨began, rest, rfl, hrest⟩ := ends_run_query_bind_iff.mp h
  dsimp only at hrest
  obtain ⟨received, hunary⟩ : ∃ received, (client.unary command.method
      (envelope id iteration.toUInt32 payload command.policy command.isWrite)
      { deadline := command.policy.attemptDeadline began total
        scope := client.scope
        isWrite := command.isWrite }).run.Ends rest received := by
    rcases ends_run_bind_iff.mp hrest with ⟨fault, hunary, -⟩ | ⟨_, _, response, rfl, hunary, hreply⟩
    · exact ⟨_, hunary⟩
    · obtain ⟨rfl, -⟩ := ends_run_lift_iff.mp hreply
      rw [List.append_nil]
      exact ⟨_, hunary⟩
  rcases unary_lead began hunary with hlocal | ⟨lead, call, reply, back, hrest, hlead⟩
  · exact .inl (List.forall_mem_cons.mpr ⟨trivial, hlocal⟩)
  · exact .inr ⟨began, lead, call, reply, back, hrest, hlead⟩

/-- What an attempt asks up to the request that it hands over. -/
theorem lead_of_attempt {front back : History} {call : Call}
    {reply : Delayed (Except Status Envelope.Response)} {outcome : Except Fault Command.Output}
    (hfront : ∀ event ∈ front, event.question.IsLocal)
    (h : (client.attempt command payload id iteration total).run.Ends
      (front ++ ⟨.send call, reply⟩ :: back) outcome) :
    ∃ began, Lead { deadline := command.policy.attemptDeadline began total
                    scope := client.scope
                    isWrite := command.isWrite } front := by
  rcases attempt_lead h with hlocal | ⟨began, lead, made, given, later, hsplit, hlead⟩
  · exact (hlocal _ (List.mem_append_right _ List.mem_cons_self)).elim
  · obtain ⟨middle, rfl, hlater⟩ := split_behind hlead.isLocal (not_isLocal_send call) hsplit
    cases middle with
    | nil => exact ⟨began, by rwa [List.append_nil]⟩
    | cons event middle =>
        obtain ⟨rfl, -⟩ := List.cons.inj hlater
        exact (hfront _ (List.mem_append_right _ List.mem_cons_self)).elim

/-! ### Pauses -/

/-- The pause between two attempts: none, or a wait for its end. -/
inductive Pause (span : Time) : History → Prop where
  | none : span = 0 → Pause span []
  | waited {now : Time} {waited : Waited} :
      Pause span [⟨.clock, now⟩, ⟨.wait (some (now + span)) {}, waited⟩]

theorem Pause.isLocal {span : Time} (h : Pause span history) :
    ∀ event ∈ history, event.question.IsLocal := by
  cases h <;> simp [Ask.IsLocal]

theorem pause_sleep {span : Time} (h : (sleep span).Ends history ()) : Pause span history := by
  obtain ⟨now, rest, rfl, hrest⟩ := ends_ask_iff.mp h
  obtain ⟨waited, last, rfl, hlast⟩ := ends_ask_iff.mp hrest
  obtain ⟨rfl, -⟩ := ends_pure_iff.mp hlast
  exact .waited

/-- Whether another attempt may follow is decided when the one before has failed, and then comes the pause. -/
theorem attempts_pauses {result : Except Fault Command.Output}
    (h : (client.attempts command payload id total retries iteration doubt).Ends history result) :
    ∃ front back outcome, history = front ++ back ∧
      (client.attempt command payload id iteration total).run.Ends front outcome ∧
      ((∀ event ∈ back, event.question.IsLocal) ∨
        ∃ left doubt fault reviewed pause rest, left < retries ∧ outcome = .error fault ∧
          mayRetry fault reviewed total = true ∧ Pause command.policy.sleepBetweenRetries pause ∧
          back = ⟨.clock, reviewed⟩ :: (pause ++ rest) ∧
          (client.attempts command payload id total left (iteration + 1) doubt).Ends rest result) := by
  unfold attempts at h
  obtain ⟨front, back, outcome, rfl, hattempt, hback⟩ := ends_bind_iff.mp h
  refine ⟨front, back, outcome, rfl, hattempt, ?_⟩
  cases outcome with
  | ok output =>
      obtain ⟨rfl, rfl⟩ := ends_pure_iff.mp hback
      exact .inl (List.forall_mem_nil _)
  | error fault =>
      cases retries with
      | zero =>
          obtain ⟨rfl, rfl⟩ := ends_pure_iff.mp hback
          exact .inl (List.forall_mem_nil _)
      | succ retries =>
          obtain ⟨reviewed, rest, rfl, hrest⟩ := ends_query_bind_iff.mp hback
          by_cases hretry : mayRetry fault reviewed total = true
          · rw [if_pos hretry] at hrest
            by_cases hsleep : command.policy.sleepBetweenRetries ≠ 0
            · rw [if_pos hsleep] at hrest
              obtain ⟨pause, later, span, rfl, hpause, hlater⟩ := ends_bind_iff.mp hrest
              exact .inr ⟨retries, _, fault, reviewed, pause, later, Nat.lt_succ_self _, rfl, hretry,
                pause_sleep hpause, rfl, hlater⟩
            · rw [if_neg hsleep] at hrest
              exact .inr ⟨retries, _, fault, reviewed, [], rest, Nat.lt_succ_self _, rfl, hretry,
                .none (not_not.mp hsleep), rfl, hrest⟩
          · rw [if_neg hretry] at hrest
            obtain ⟨rfl, rfl⟩ := ends_pure_iff.mp hrest
            exact .inl (List.forall_mem_singleton.mpr trivial)

/-! ### Times -/

variable {began limit span reviewed : Time} {log before : List Timed} {handing : Timed}

/-- A token is all that a client waits for before it hands a request over. -/
theorem Lead.ended_cases (h : Lead limits (events log)) (hpaced : Paced began log) :
    ended began log = began ∨
      ∃ text, ⟨ended began log, .credential limits, Credential.Answer.token text⟩ ∈ log := by
  generalize hasked : events log = asked at h
  cases h with
  | plain =>
      refine .inl (ended_eq hpaced ?_)
      rw [hasked]
      simp [Ask.Waits]
  | proven =>
      obtain ⟨second, rfl, hsecond, -, hpaced⟩ := paced_cons hasked hpaced id
      obtain ⟨third, rfl, hthird, -, hpaced⟩ := paced_cons hsecond hpaced id
      obtain ⟨⟨time, event⟩, last, rfl, rfl, hlast⟩ := List.map_eq_cons_iff.mp hthird
      obtain ⟨silent, rfl, hsilent, -, -⟩ := paced_cons hlast hpaced.2 id
      obtain rfl := List.map_eq_nil_iff.mp hsilent
      exact .inr ⟨_, List.mem_cons_of_mem _ (List.mem_cons_of_mem _ List.mem_cons_self)⟩

theorem Lead.woken (h : Lead limits history) (hdeadline : ∃ moment ∈ limits.deadline, moment ≤ limit) :
    ∀ event ∈ history, event.question.Waits →
      ∃ moment ∈ wakeTimes event.question, moment ≤ limit := by
  obtain ⟨moment, hmem, hle⟩ := hdeadline
  have hwake : ∃ moment ∈ wakeTimes (.credential limits), moment ≤ limit :=
    ⟨moment, Option.mem_toList.mpr hmem, hle⟩
  cases h <;> simp [Ask.Waits, hwake]

/-- Whether another attempt may follow is looked at when the one before has ended, and the pause then takes
its span. -/
theorem ended_pause {pause : History} (hpause : Pause span pause)
    (hlog : events log = ⟨.clock, reviewed⟩ :: pause) (hpaced : Paced began log) :
    reviewed = began ∧ ended began log = began + span := by
  obtain ⟨pausing, rfl, hpausing, rfl, hpaced⟩ := paced_cons hlog hpaced id
  refine ⟨rfl, ?_⟩
  cases hpause with
  | none hspan =>
      obtain rfl := List.map_eq_nil_iff.mp hpausing
      rw [hspan]
      rfl
  | @waited now waited =>
      obtain ⟨waiting, rfl, hwaiting, rfl, hpaced⟩ := paced_cons hpausing hpaced id
      obtain ⟨⟨time, event⟩, silent, rfl, rfl, hsilent⟩ := List.map_eq_cons_iff.mp hwaiting
      obtain rfl := List.map_eq_nil_iff.mp hsilent
      obtain ⟨⟨-, hwake, -, htold, hhonours⟩, -⟩ := hpaced
      show time = _
      have hlatest := hwake _ List.mem_cons_self
      have harrived : waited = Waited.arrived := by
        cases waited with
        | arrived => rfl
        | timedOut =>
            obtain ⟨moment, hmoment, -⟩ := htold.2 rfl
            cases hmoment
        | cancelled => exact absurd rfl (hhonours rfl)
      obtain ⟨moment, hmoment, hreached⟩ := htold.1 harrived
      obtain rfl := Option.some.inj hmoment
      rw [Nat.max_eq_right (Nat.le_add_right _ _)] at hlatest
      exact Nat.le_antisymm hlatest hreached

/-! ### Late requests -/

/-- A run of attempts that begins at `began`, and has made those that are listed, is late for the next: it
has begun late, or overslept. -/
def LateFor (client : Client) (command : Command) (limit began : Time) (tried : List Attempt) : Prop :=
  match tried.getLast? with
  | none => limit ≤ began
  | some previous => previous.Oversleeps client command limit

/-- When a run of attempts that begins at `began` hands over the request behind the log. -/
structure HandedAt (client : Client) (command : Command) (limit began : Time) (before : List Timed)
    (now : Time) : Prop where
  le : now ≤ max began limit +
    (attemptsIn (events before)).length * command.policy.sleepBetweenRetries
  late_iff : limit ≤ now ↔ LateFor client command limit began (attemptsIn (events before)) ∨
    now = limit ∧ ∃ limits text, ⟨now, .credential limits, Credential.Answer.token text⟩ ∈ before

/-- The first request of a run. -/
theorem handedAt_first (hlead : Lead limits (events before))
    (hdeadline : ∃ moment ∈ limits.deadline, moment ≤ limit)
    (hpaced : Paced began (before ++ [handing])) (hsend : ¬ handing.event.question.Waits) :
    HandedAt client command limit began before handing.time := by
  obtain ⟨hbefore, hhanding, -⟩ := paced_append.mp hpaced
  have hnow : handing.time = ended began before := hhanding.at_once hsend
  obtain ⟨hbegan, hended⟩ := ended_le hbefore (hlead.woken hdeadline)
  rw [hnow]
  have hnone : attemptsIn (events before) = [] := attemptsIn_of_local hlead.isLocal
  constructor
  · rwa [hnone, List.length_nil, Nat.zero_mul, Nat.add_zero]
  · rw [hnone]
    show limit ≤ _ ↔ limit ≤ began ∨ _
    constructor
    · intro hlate
      rcases hlead.ended_cases hbefore with hsame | ⟨text, hmem⟩
      · exact .inl (hsame ▸ hlate)
      · rcases Nat.lt_or_ge began limit with hearly | hlate
        · rw [Nat.max_eq_right (Nat.le_of_lt hearly)] at hended
          exact .inr ⟨Nat.le_antisymm hended hlate, _, text, hmem⟩
        · exact .inl hlate
    · rintro (hlate | ⟨hnow, -⟩)
      · exact Nat.le_trans hlate hbegan
      · exact Nat.le_of_eq hnow.symm

/-- A later request, handed over behind an attempt and a pause. -/
theorem handedAt_again {front later : List Timed} {attempt : Attempt} {now : Time}
    (hrepeatable : attempt.Repeatable client command (some limit))
    (hreviewed : attempt.reviewed = some reviewed) (hlimit : reviewed ≤ max began limit)
    (htried : attemptsIn (events (front ++ later)) = attempt :: attemptsIn (events later))
    (h : HandedAt client command limit (reviewed + command.policy.sleepBetweenRetries) later now) :
    HandedAt client command limit began (front ++ later) now := by
  have hlate : LateFor client command limit (reviewed + command.policy.sleepBetweenRetries)
      (attemptsIn (events later)) ↔
        LateFor client command limit began (attempt :: attemptsIn (events later)) := by
    cases attemptsIn (events later) with
    | nil =>
        constructor
        · exact fun hlate => ⟨hrepeatable, reviewed, hreviewed, hlate⟩
        · rintro ⟨-, told, htold, hlate⟩
          obtain rfl := Option.some.inj (hreviewed.symm.trans htold)
          exact hlate
    | cons next rest => rw [LateFor, LateFor, List.getLast?_cons_cons, List.getLast?_cons]
  have hpause : max (reviewed + command.policy.sleepBetweenRetries) limit ≤
      max began limit + command.policy.sleepBetweenRetries :=
    Nat.max_le.mpr ⟨Nat.add_le_add_right hlimit _,
      Nat.le_trans (Nat.le_max_right _ _) (Nat.le_add_right _ _)⟩
  constructor
  · rw [htried, List.length_cons, Nat.add_one_mul, Nat.add_comm (_ * _), ← Nat.add_assoc]
    exact Nat.le_trans h.le (Nat.add_le_add_right hpause _)
  · rw [htried, ← hlate, h.late_iff]
    constructor
    · rintro (hlate | ⟨hnow, limits, text, hmem⟩)
      · exact .inl hlate
      · exact .inr ⟨hnow, limits, text, List.mem_append_right _ hmem⟩
    · rintro (hlate | ⟨hnow, -⟩)
      · exact .inl hlate
      · exact h.late_iff.mp (Nat.le_of_eq hnow.symm)

/-- Whatever an attempt waits for, it is woken by the limit. -/
theorem woken_of_attempt {exchange : Exchange} {outcome : Except Fault Command.Output}
    (hfits : exchange.Fits client command payload id (some limit) iteration)
    (hshows : Shows exchange history)
    (h : (client.attempt command payload id iteration (some limit)).run.Ends history outcome) :
    ∀ event ∈ history, event.question.Waits →
      ∃ moment ∈ wakeTimes event.question, moment ≤ limit := by
  obtain @⟨lead, renewing, now, due, hlead, hrenewal⟩ := hshows
  obtain ⟨began, hasked⟩ := lead_of_attempt hlead h
  obtain ⟨start, hlimits⟩ := hfits.limits_eq
  obtain ⟨deadline, hdeadline, hle⟩ := command.policy.attemptDeadline_le start limit
  simp only [List.forall_mem_append, List.forall_mem_cons]
  refine ⟨hasked.woken (command.policy.attemptDeadline_le began limit), nofun, nofun, fun _ => ?_, ?_⟩
  · refine ⟨deadline, List.mem_append_right _ (Option.mem_toList.mpr ?_), hle⟩
    rw [hlimits]
    exact hdeadline
  · intro event hmem hwaits
    rw [hrenewal event hmem] at hwaits
    exact hwaits.elim

/-- What stands before a request of a run of attempts: what its own attempt asks first, or else an attempt that
may be repeated, the pause behind it, and what stands before the request in the rest of the run. -/
theorem handing_cases {front later : History} {call : Call}
    {reply : Delayed (Except Status Envelope.Response)} {result : Except Fault Command.Output}
    (h : (client.attempts command payload id (some limit) retries iteration doubt).Ends
      (front ++ ⟨.send call, reply⟩ :: later) result) :
    (∃ limits, Lead limits front ∧ ∃ moment ∈ limits.deadline, moment ≤ limit) ∨
    ∃ attempted attempt reviewed pause rest left doubt,
      front = attempted ++ (⟨.clock, reviewed⟩ :: pause ++ rest) ∧
      (∀ event ∈ attempted, event.question.Waits →
        ∃ moment ∈ wakeTimes event.question, moment ≤ limit) ∧
      Pause command.policy.sleepBetweenRetries pause ∧
      attempt.Repeatable client command (some limit) ∧ attempt.reviewed = some reviewed ∧
      attemptsIn front = attempt :: attemptsIn rest ∧ left < retries ∧
      (client.attempts command payload id (some limit) left (iteration + 1) doubt).Ends
        (rest ++ ⟨.send call, reply⟩ :: later) result := by
  have hsend := not_isLocal_send call
  obtain ⟨attempted, back, outcome, hsplit, hattempt, hback⟩ := attempts_pauses h
  cases attempt_cases hattempt with
  | refused hlocal hrefusal =>
      obtain ⟨middle, -, rfl⟩ := split_behind hlocal hsend hsplit
      rcases hback with hlocal | ⟨_, _, _, _, _, _, -, houtcome, hretry, -⟩
      · exact absurd (hlocal _ (List.mem_append_right _ List.mem_cons_self)) hsend
      · obtain rfl := Except.error.inj houtcome
        exact absurd hretry hrefusal.not_mayRetry
  | @handed exchange hfits hshows =>
      have hwoken := woken_of_attempt hfits hshows hattempt
      have htried := hshows.attemptsIn_append
      obtain @⟨lead, renewing, now, due, hlead, hrenewal⟩ := hshows
      rw [List.append_assoc] at hsplit
      obtain ⟨middle, rfl, hrest⟩ := split_behind hlead hsend hsplit
      cases middle with
      | nil =>
          obtain ⟨began, hasked⟩ := lead_of_attempt hlead hattempt
          rw [List.append_nil]
          exact .inl ⟨_, hasked, command.policy.attemptDeadline_le began limit⟩
      | cons event middle =>
          -- The request is not the one of this attempt, so it stands behind the reply and the pause.
          obtain ⟨rfl, hreplied⟩ := List.cons.inj hrest
          have hreply : ∀ event ∈ (⟨.clock, now⟩ :: ⟨.wait due exchange.limits, exchange.waited⟩ ::
              renewing : History), event.question.IsLocal :=
            List.forall_mem_cons.mpr ⟨trivial, List.forall_mem_cons.mpr ⟨trivial, hrenewal.isLocal⟩⟩
          obtain ⟨behind, rfl, rfl⟩ := split_behind hreply hsend hreplied.symm
          rcases hback with hlocal | ⟨left, doubt, fault, reviewed, pause, rest, hleft, houtcome, hretry,
            hpause, hpausing, hmore⟩
          · exact absurd (hlocal _ (List.mem_append_right _ List.mem_cons_self)) hsend
          have hpaused : ∀ event ∈ (⟨.clock, reviewed⟩ :: pause : History), event.question.IsLocal :=
            List.forall_mem_cons.mpr ⟨trivial, hpause.isLocal⟩
          obtain ⟨rest, rfl, rfl⟩ := split_behind hpaused hsend hpausing
          refine .inr ⟨_, { exchange with reviewed := some reviewed }, reviewed, pause, rest, left, doubt,
            ?_, hwoken, hpause, (repeatable_iff houtcome rfl).mpr hretry, rfl, ?_, hleft, hmore⟩
          · rw [List.append_assoc]
            rfl
          · have hlead := htried (⟨.clock, reviewed⟩ :: pause ++ rest)
            rw [attemptsIn_append hpaused, List.append_assoc] at hlead
            exact hlead

/-- The induction is on the retries that are left. -/
theorem handedAt_attempts {later : History} {now : Time} {call : Call}
    {reply : Delayed (Except Status Envelope.Response)} {result : Except Fault Command.Output}
    (hpaced : Paced began (before ++ [⟨now, .send call, reply⟩]))
    (h : (client.attempts command payload id (some limit) retries iteration doubt).Ends
      (events before ++ ⟨.send call, reply⟩ :: later) result) :
    HandedAt client command limit began before now := by
  induction retries using Nat.strongRecOn generalizing iteration doubt before began with
  | ind retries ih =>
      rcases handing_cases h with ⟨limits, hlead, hdeadline⟩ | ⟨attempted, attempt, reviewed, pause, rest,
        left, doubt, hbefore, hwoken, hpause, hrepeatable, hreviewed, htried, hleft, hmore⟩
      · exact handedAt_first hlead hdeadline hpaced nofun
      obtain ⟨front, back, rfl, rfl, hback⟩ := List.map_eq_append_iff.mp hbefore
      obtain ⟨pausing, behind, rfl, hpausing, rfl⟩ := List.map_eq_append_iff.mp hback
      rw [List.append_assoc, List.append_assoc, paced_append, paced_append] at hpaced
      obtain ⟨hfront, hmiddle, hbehind⟩ := hpaced
      obtain ⟨rfl, hended⟩ := ended_pause hpause hpausing hmiddle
      rw [hended] at hbehind
      rw [← List.append_assoc] at htried ⊢
      exact handedAt_again hrepeatable hreviewed (ended_le hfront hwoken).2 htried
        (ih left hleft hbehind hmore)

/-- A command with a time limit hands a request over when the limit is reached, or later, only in two cases:
behind a pause that reaches so far, which begins in time or behind a refusal of the gateway; or at the limit
itself, if the client has waited for its token until then. It is never later than the pauses are long. This
is so however long the session lets the call wait. -/
theorem handed_late_iff {session : Session} {after : List Timed} {horizon now : Time} {call : Call}
    {reply : Delayed (Except Status Envelope.Response)} (hhorizon : session.now ≤ horizon)
    (hlimited : command.policy.totalTimeout ≠ 0)
    (hlog : session.timedLog horizon (client.execute command).run =
      before ++ ⟨now, .send call, reply⟩ :: after) :
    let limit := session.now + command.policy.totalTimeout
    let tried := attemptsIn (events before)
    (now, call) ∈ (session.runUntil horizon (client.execute command).run).2.sent ∧
      now ≤ limit + tried.length * command.policy.sleepBetweenRetries ∧
      (limit ≤ now ↔
        (∃ previous, tried.getLast? = some previous ∧ previous.Oversleeps client command limit) ∨
          now = limit ∧
            ∃ limits text, ⟨now, .credential limits, Credential.Answer.token text⟩ ∈ before) := by
  intro limit tried
  obtain ⟨back, value, hends, -⟩ := ends_timedLog horizon (client.execute command).run session
  have hpaced := paced_timedLog horizon (client.execute command).run session
  have hsent := sent_of_timedLog hhorizon (hlog ▸ List.mem_append_right before List.mem_cons_self)
  rw [hlog] at hends
  rw [hlog, List.append_cons, paced_append] at hpaced
  rw [events, List.map_append, List.append_assoc] at hends
  refine ⟨hsent, ?_⟩
  rcases execute_cases hends with ⟨_, -, hnothing, -⟩ | ⟨payload, start, number, rest, -, hwhole, hrest⟩
  · exact absurd hnothing (List.append_ne_nil_of_right_ne_nil _ (List.cons_ne_nil _ _))
  -- The time and a number are asked for before the first attempt; neither takes time, so the limit counts
  -- from the moment of the call.
  have hfirst : ∀ event ∈ ([⟨.clock, start⟩, ⟨.drawId, number⟩] : History), event.question.IsLocal := by
    simp [Ask.IsLocal]
  obtain ⟨asked, hbefore, rfl⟩ := split_behind hfirst (not_isLocal_send call) hwhole
  obtain ⟨drawing, rfl, hdrawing, hstart, hdrawn⟩ :=
    paced_cons hbefore (paced_append.mp hpaced.1).1 not_false
  obtain rfl : start = session.now := hstart
  obtain ⟨leading, rfl, rfl, -, -⟩ := paced_cons hdrawing hdrawn not_false
  have hlimit : command.policy.deadline session.now = some limit := if_neg hlimited
  rw [hlimit] at hrest
  obtain ⟨hle, hlate⟩ := handedAt_attempts hpaced.1.2.2 hrest
  rw [Nat.max_eq_right (Nat.le_add_right session.now _)] at hle
  have hearly : ¬ limit ≤ session.now :=
    Nat.not_le_of_lt (Nat.lt_add_of_pos_right (Nat.pos_of_ne_zero hlimited))
  have hpause : LateFor client command limit session.now tried ↔
      ∃ previous, tried.getLast? = some previous ∧ previous.Oversleeps client command limit := by
    unfold LateFor
    cases tried.getLast? <;> simp [hearly]
  refine ⟨hle, ?_⟩
  rw [← hpause]
  constructor
  · intro hreached
    refine (hlate.mp hreached).imp_right ?_
    rintro ⟨hnow, limits, text, hmem⟩
    exact ⟨hnow, limits, text, List.mem_cons_of_mem _ (List.mem_cons_of_mem _ hmem)⟩
  · rintro (hoverslept | ⟨hnow, -⟩)
    · exact hlate.mpr (.inl hoverslept)
    · exact Nat.le_of_eq hnow.symm

/-- A write of a hundred milliseconds, of which an attempt may take fifty and the pause behind it sixty. -/
def pausingTouch : Command where
  key := {}
  policy := { totalTimeout := 100, socketTimeout := 50, maxRetries := 1, sleepBetweenRetries := 60 }
  action := .touch

/-- A session in which the first request is not answered. -/
def silentSession : Session :=
  .start bareClient { responses := [⟨none, .error ⟨.unavailable, "", []⟩⟩] }

/-- Whether a request is handed over behind a moment. -/
def handsAfter (moment : Time) : Timed → Bool
  | ⟨now, ⟨.send _, _⟩⟩ => moment < now
  | _ => false

theorem exists_late_touch : ∃ before now call reply after,
    silentSession.timedLog (silentSession.now + patience) (bareClient.execute pausingTouch).run =
      before ++ ⟨now, .send call, reply⟩ :: after ∧ 100 < now := by
  have hlate : (silentSession.timedLog (silentSession.now + patience)
      (bareClient.execute pausingTouch).run).any (handsAfter 100) = true := by
    decide +kernel
  obtain ⟨⟨now, question, answer⟩, hmem, hhands⟩ := List.any_eq_true.mp hlate
  obtain ⟨before, after, hlog⟩ := List.append_of_mem hmem
  cases question with
  | send call => exact ⟨before, now, call, answer, after, hlog, of_decide_eq_true hhands⟩
  | _ => cases hhands

/-- The second request is late, because the pause behind the first attempt is not looked at. -/
theorem late_touch_oversleeps : ∃ before now call reply after,
    silentSession.timedLog (silentSession.now + patience) (bareClient.execute pausingTouch).run =
      before ++ ⟨now, .send call, reply⟩ :: after ∧
    ∃ previous, (attemptsIn (events before)).getLast? = some previous ∧
      previous.Oversleeps bareClient pausingTouch 100 := by
  obtain ⟨before, now, call, reply, after, hlog, hlate⟩ := exists_late_touch
  refine ⟨before, now, call, reply, after, hlog, ?_⟩
  obtain ⟨-, -, hiff⟩ := handed_late_iff (Nat.le_add_right _ _) (by decide) hlog
  rcases hiff.mp (Nat.le_of_lt hlate) with hpause | ⟨hnow, -⟩
  · exact hpause
  · exact absurd hnow (Nat.ne_of_gt hlate)

/-- A time limit does not keep all requests of a command before it. -/
theorem request_behind_limit :
    ¬ ∀ (client : Client) (command : Command) (session : Session) (before after : List Timed) (now : Time)
        (call : Call) (reply : Delayed (Except Status Envelope.Response)),
      command.policy.totalTimeout ≠ 0 →
      session.timedLog (session.now + patience) (client.execute command).run =
        before ++ ⟨now, .send call, reply⟩ :: after →
      now < session.now + command.policy.totalTimeout := by
  intro hall
  obtain ⟨before, now, call, reply, after, hlog, hlate⟩ := exists_late_touch
  exact Nat.lt_asymm hlate (hall _ _ _ _ _ _ _ _ (by decide) hlog)

end Client
end RecordGateway
