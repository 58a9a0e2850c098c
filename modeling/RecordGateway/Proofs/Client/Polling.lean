import RecordGateway.Proofs.Client.Inquiry
import RecordGateway.Session.Calls

/-!
Waiting for the end of a task. A client that waits asks for the status, and as long as the task is in progress
and an interval fits in before the deadline, it pauses for the interval and asks again (`pollTask_cases`).
Questions with their pauses are a stretch of the log, and since each takes the interval at least, a stretch before
the deadline holds no more of them than fit in (`Stretch.spans`). Whatever a wait asks in a question stands behind
a stretch (`stretch_before`). The log of a wait, ended or not, shows the questions that have been answered, and the
answer to the last one decides, or it is the first behind which no interval fits in (`fares_of_pollTask`).
-/

namespace RecordGateway

open Envelope (TaskStatus)

/-- A question for the status of a task: when it began, when the answer was there, and the answer. -/
structure Poll where
  began : Time
  ended : Time
  outcome : Except Fault TaskStatus

/-- The task is in progress, and an interval fits in before the deadline. -/
structure Poll.GoesOn (poll : Poll) (interval : Time) (deadline : Option Time) : Prop where
  outcome_eq : poll.outcome = .ok .inProgress
  in_time : ∀ moment ∈ deadline, poll.ended + interval ≤ moment

/-- How a wait ends with an answer behind which it does not go on. -/
def Task.verdict (task : Task) : Except Fault TaskStatus → Except Fault Unit
  | .ok .complete => .ok ()
  | .ok .notFound => .error (.client s!"background task {task.id} not found")
  | .ok .inProgress =>
    .error { Fault.ofKind .timeout with message := some s!"background task {task.id} still running" }
  | .error fault => .error fault

theorem Task.verdict_eq_ok_iff {task : Task} {outcome : Except Fault TaskStatus} :
    task.verdict outcome = .ok () ↔ outcome = .ok .complete := by
  unfold verdict
  split <;> simp

namespace Client

open RecordGateway.Flow Session

variable {client : Client} {task : Task} {interval began : Time} {deadline : Option Time}
  {questions : Nat} {history : History} {result : Except Fault Unit} {mark : Event → Bool}

/-! ### One question -/

/-- What a wait comes to that may still ask: the answer ends it, or no interval fits in any more, or it pauses
and goes on. -/
inductive PollStep (client : Client) (task : Task) (interval : Time) (deadline : Option Time)
    (questions : Nat) : History → Except Fault Unit → Prop where
  | settled {history : History} {outcome : Except Fault TaskStatus} :
      (client.taskStatus task).run.Ends history outcome → outcome ≠ .ok .inProgress →
      PollStep client task interval deadline questions history (task.verdict outcome)
  | late {asked : History} {now : Time} :
      (client.taskStatus task).run.Ends asked (.ok .inProgress) →
      (∃ moment ∈ deadline, moment < now + interval) →
      PollStep client task interval deadline questions (asked ++ [⟨.clock, now⟩])
        (task.verdict (.ok .inProgress))
  | again {asked pause rest : History} {now : Time} {result : Except Fault Unit} :
      (client.taskStatus task).run.Ends asked (.ok .inProgress) →
      (∀ moment ∈ deadline, now + interval ≤ moment) → Pause interval pause →
      (client.pollTask task interval deadline questions).run.Ends rest result →
      PollStep client task interval deadline questions (asked ++ ⟨.clock, now⟩ :: (pause ++ rest)) result

theorem pollTask_cases
    (h : (client.pollTask task interval deadline (questions + 1)).run.Ends history result) :
    PollStep client task interval deadline questions history result := by
  unfold pollTask at h
  rcases ends_run_bind_iff.mp h with ⟨fault, hfault, rfl⟩ | ⟨asked, back, status, rfl, hasked, hback⟩
  · exact .settled hfault nofun
  cases status with
  | complete =>
      obtain ⟨rfl, rfl⟩ := ends_pure_iff.mp hback
      rw [List.append_nil]
      exact .settled hasked nofun
  | notFound =>
      obtain ⟨rfl, rfl⟩ := ends_pure_iff.mp hback
      rw [List.append_nil]
      exact .settled hasked nofun
  | inProgress =>
      obtain ⟨now, rest, rfl, hrest⟩ := ends_run_query_bind_iff.mp hback
      dsimp only at hrest
      split at hrest
      · next hlate =>
          obtain ⟨rfl, rfl⟩ := ends_pure_iff.mp hrest
          refine .late hasked ?_
          cases deadline with
          | none => cases hlate
          | some moment => exact ⟨moment, rfl, of_decide_eq_true hlate⟩
      · next hearly =>
          have hfits : ∀ moment ∈ deadline, now + interval ≤ moment := by
            rintro moment rfl
            exact Nat.le_of_not_lt fun hlate => hearly (decide_eq_true hlate)
          rcases ends_run_bind_iff.mp hrest with ⟨fault, hpause, -⟩ | ⟨pause, later, _, rfl, hpause, hlater⟩
          · obtain ⟨_, _, _, -, -, hlast⟩ := ends_bind_iff.mp hpause
            cases (ends_pure_iff.mp hlast).2
          · obtain ⟨pausing, silent, _, rfl, hpausing, hsilent⟩ := ends_bind_iff.mp hpause
            obtain ⟨rfl, -⟩ := ends_pure_iff.mp hsilent
            rw [List.append_nil]
            exact .again hasked hfits (pause_sleep hpausing) hlater

/-! ### Stretches -/

variable {log before : List Timed} {polls : List Poll}

/-- Questions one after the other, behind each of which the wait goes on; the next one begins when an interval
has passed since the answer. -/
inductive Stretch (client : Client) (task : Task) (interval : Time) (deadline : Option Time) :
    Time → List Timed → List Poll → Prop where
  | nil {began : Time} : Stretch client task interval deadline began [] []
  | cons {began : Time} {asked pausing later : List Timed} {outcome : Except Fault TaskStatus}
      {pause : History} {polls : List Poll} :
      (client.taskStatus task).run.Ends (events asked) outcome →
      Poll.GoesOn ⟨began, ended began asked, outcome⟩ interval deadline →
      events pausing = ⟨.clock, ended began asked⟩ :: pause → Pause interval pause →
      Stretch client task interval deadline (ended began asked + interval) later polls →
      Stretch client task interval deadline began (asked ++ (pausing ++ later))
        (⟨began, ended began asked, outcome⟩ :: polls)

theorem OncePerQuestion.countP_of_pause (honce : OncePerQuestion client task mark) {pause : History}
    {now : Time} (hpause : Pause interval pause) : List.countP mark (⟨.clock, now⟩ :: pause) = 0 := by
  cases hpause <;> simp [honce.clock, honce.wait]

theorem OncePerQuestion.countP_of_stretch (honce : OncePerQuestion client task mark)
    (h : Stretch client task interval deadline began log polls) :
    (events log).countP mark = polls.length := by
  induction h with
  | nil => rfl
  | @cons _ asked pausing later _ _ polls hasked hgoes hpausing hpause _ ih =>
      obtain rfl := hgoes.outcome_eq
      rw [events_append, events_append, List.countP_append, List.countP_append, honce.answered hasked,
        hpausing, honce.countP_of_pause hpause, ih, Nat.zero_add, Nat.add_comm]
      rfl

/-- A stretch takes the interval for each of its questions at least, and ends by the deadline. -/
theorem Stretch.spans (h : Stretch client task interval deadline began log polls)
    (hpaced : Paced began log) (hbegan : ∀ moment ∈ deadline, began ≤ moment) :
    began + polls.length * interval ≤ ended began log ∧
      ∀ moment ∈ deadline, ended began log ≤ moment := by
  induction h with
  | @nil began => exact ⟨by simp [ended], hbegan⟩
  | @cons began asked pausing later _ pause polls _ hgoes hpausing hpause _ ih =>
      obtain ⟨hasked, hbehind⟩ := paced_append.mp hpaced
      obtain ⟨hpaused, hlater⟩ := paced_append.mp hbehind
      obtain ⟨-, hended⟩ := ended_pause hpause hpausing hpaused
      rw [hended] at hlater
      obtain ⟨hlong, hearly⟩ := ih hlater hgoes.in_time
      rw [ended_append, ended_append, hended]
      refine ⟨?_, hearly⟩
      rw [List.length_cons, Nat.add_one_mul]
      calc began + (polls.length * interval + interval)
          = began + interval + polls.length * interval := by rw [Nat.add_assoc, Nat.add_comm interval]
        _ ≤ ended began asked + interval + polls.length * interval :=
            Nat.add_le_add_right (Nat.add_le_add_right (le_ended hasked) _) _
        _ ≤ _ := hlong

/-- Where a question, the pause behind it and the rest stand in a log. -/
theorem exists_round {asked pause behind : History} {now : Time}
    (hlog : events log = asked ++ ⟨.clock, now⟩ :: (pause ++ behind)) (hpause : Pause interval pause)
    (hpaced : Paced began log) :
    ∃ asking pausing later, log = asking ++ (pausing ++ later) ∧ events asking = asked ∧
      events pausing = ⟨.clock, ended began asking⟩ :: pause ∧ events later = behind ∧
      now = ended began asking ∧ Paced (now + interval) later := by
  obtain ⟨asking, back, rfl, rfl, hback⟩ := List.map_eq_append_iff.mp hlog
  rw [← List.cons_append] at hback
  obtain ⟨pausing, later, rfl, hpausing, rfl⟩ := List.map_eq_append_iff.mp hback
  obtain ⟨-, hbehind⟩ := paced_append.mp hpaced
  obtain ⟨hpaused, hlater⟩ := paced_append.mp hbehind
  obtain ⟨rfl, hended⟩ := ended_pause hpause hpausing hpaused
  rw [hended] at hlater
  exact ⟨asking, pausing, later, rfl, rfl, hpausing, rfl, rfl, hlater⟩

/-- Whatever belongs to a question stands behind a stretch, in the question that follows it. The induction is on
the questions that are left. -/
theorem stretch_before (honce : OncePerQuestion client task mark) {later : History} {event : Event}
    (hevent : mark event = true) (hpaced : Paced began before)
    (h : (client.pollTask task interval deadline questions).run.Ends (events before ++ event :: later)
      result) :
    ∃ waiting asking polls rest outcome, before = waiting ++ asking ∧
      Stretch client task interval deadline began waiting polls ∧
      (client.taskStatus task).run.Ends (events asking ++ event :: rest) outcome := by
  have hbetween : ∀ {span now : Time} {pause middle rest : History}, Pause span pause →
      ⟨.clock, now⟩ :: pause ≠ middle ++ event :: rest := by
    intro span now pause middle rest hpause hpaused
    have hnone : List.countP mark (⟨.clock, now⟩ :: pause) = 0 := honce.countP_of_pause hpause
    rw [hpaused, List.countP_eq_zero] at hnone
    exact hnone event (List.mem_append_right _ List.mem_cons_self) hevent
  induction questions generalizing began before with
  | zero =>
      obtain ⟨hnothing, -⟩ := ends_pure_iff.mp h
      cases List.append_ne_nil_of_right_ne_nil _ (List.cons_ne_nil _ _) hnothing
  | succ questions ih =>
      generalize hwhole : events before ++ event :: later = history at h
      cases pollTask_cases h with
      | settled hasked _ =>
          rw [← hwhole] at hasked
          exact ⟨[], before, [], later, _, rfl, .nil, hasked⟩
      | late hasked _ =>
          rcases split_at hwhole with ⟨rest, rfl⟩ | ⟨middle, -, hlate⟩
          · exact ⟨[], before, [], rest, _, rfl, .nil, hasked⟩
          · exact absurd hlate (hbetween (.none rfl))
      | @again asked pause rest now _ hasked hfits hpause hrest =>
          rcases split_at hwhole with ⟨rest, rfl⟩ | ⟨middle, hbefore, hback⟩
          · exact ⟨[], before, [], rest, _, rfl, .nil, hasked⟩
          rw [← List.cons_append] at hback
          rcases split_at hback.symm with ⟨rest, hpaused⟩ | ⟨behind, rfl, rfl⟩
          · exact absurd hpaused (hbetween hpause)
          obtain ⟨asking, pausing, later, rfl, rfl, hpausing, rfl, rfl, hlater⟩ :=
            exists_round hbefore hpause hpaced
          obtain ⟨waiting, asking', polls, rest, outcome, rfl, hstretch, hasking⟩ := ih hlater hrest
          refine ⟨asking ++ (pausing ++ waiting), asking', _, rest, outcome, ?_,
            .cons hasked ⟨rfl, hfits⟩ hpausing hpause hstretch, hasking⟩
          simp

variable {rest : History} {handing : Timed} {moment span : Time}

/-- What nothing is waited for in a question before, comes in time. -/
theorem in_time (honce : OncePerQuestion client task mark) (hmark : mark handing.event = true)
    (hprompt : ∀ asked rest outcome,
      (client.taskStatus task).run.Ends (asked ++ handing.event :: rest) outcome →
      ∀ event ∈ asked ++ [handing.event], ¬ event.question.Waits)
    (hpaced : Paced began (before ++ [handing]))
    (h : (client.pollTask task interval deadline questions).run.Ends
      (events before ++ handing.event :: rest) result)
    (hbegan : ∀ moment ∈ deadline, began ≤ moment) (hmoment : moment ∈ deadline) : handing.time ≤ moment := by
  obtain ⟨hbefore, hhanding, -⟩ := paced_append.mp hpaced
  obtain ⟨waiting, asking, polls, rest, outcome, rfl, hstretch, hasked⟩ :=
    stretch_before honce hmark hbefore h
  obtain ⟨hwaiting, hasking⟩ := paced_append.mp hbefore
  obtain ⟨hasking_prompt, hsoon⟩ := List.forall_mem_append.mp (hprompt _ _ _ hasked)
  rw [hhanding.at_once (hsoon _ List.mem_cons_self), ended_append, ended_eq hasking hasking_prompt]
  exact (hstretch.spans hwaiting hbegan).2 moment hmoment

/-- A question takes the interval at least, so only so many fit in. -/
theorem countP_le (honce : OncePerQuestion client task mark) (hinterval : 0 < interval)
    (hpaced : Paced began log)
    (h : (client.pollTask task interval (some (began + span)) questions).run.Ends (events log ++ rest)
      result) :
    (events log).countP mark ≤ span / interval + 1 := by
  induction log using List.reverseRecOn generalizing rest with
  | nil => exact Nat.zero_le _
  | append_singleton front last ih =>
      rw [events_append, List.append_assoc] at h
      obtain ⟨hfront, -⟩ := paced_append.mp hpaced
      rw [events_append, List.countP_append]
      show _ + List.countP mark [last.event] ≤ _
      rw [List.countP_singleton]
      cases hmark : mark last.event with
      | false => exact ih hfront h
      | true =>
          obtain ⟨waiting, asking, polls, behind, outcome, rfl, hstretch, hasked⟩ :=
            stretch_before honce hmark hfront h
          have hbegan : ∀ moment ∈ some (began + span), began ≤ moment := by
            simp
          obtain ⟨hlong, hearly⟩ := hstretch.spans (paced_append.mp hfront).1 hbegan
          have hspan : polls.length * interval ≤ span :=
            Nat.le_of_add_le_add_left (Nat.le_trans hlong (hearly _ rfl))
          rw [events_append, List.countP_append, honce.countP_of_stretch hstretch,
            honce.countP_before hmark hasked]
          exact Nat.add_le_add_right ((Nat.le_div_iff_mul_le hinterval).mpr hspan) 1

/-! ### Answers -/

/-- The questions that a log shows answered. Behind the last one the pause may have begun, or another question,
to which there is no answer yet. -/
inductive Polls (client : Client) (task : Task) (interval : Time) : Time → List Timed → List Poll → Prop where
  | asking {began : Time} {log : List Timed} :
      (∀ asked rest outcome, log = asked ++ rest →
        ¬ (client.taskStatus task).run.Ends (events asked) outcome) →
      Polls client task interval began log []
  | last {began : Time} {asked rest : List Timed} {outcome : Except Fault TaskStatus} :
      (client.taskStatus task).run.Ends (events asked) outcome →
      (∀ event ∈ events rest, event.question = .clock) →
      Polls client task interval began (asked ++ rest) [⟨began, ended began asked, outcome⟩]
  | next {began : Time} {asked pausing later : List Timed} {outcome : Except Fault TaskStatus}
      {pause : History} {polls : List Poll} :
      (client.taskStatus task).run.Ends (events asked) outcome →
      events pausing = ⟨.clock, ended began asked⟩ :: pause → Pause interval pause →
      Polls client task interval (ended began asked + interval) later polls →
      Polls client task interval began (asked ++ (pausing ++ later))
        (⟨began, ended began asked, outcome⟩ :: polls)

variable {back : History}

/-- What becomes of a wait by the answers that it has got: if it has ended, the last answer decides, and if
anything is left to be asked, all of them say that the task is in progress. -/
inductive Fares (task : Task) (interval : Time) (deadline : Option Time) :
    List Poll → History → Except Fault Unit → Prop where
  | ended {earlier : List Poll} {last : Poll} :
      (∀ poll ∈ earlier, poll.GoesOn interval deadline) → ¬ last.GoesOn interval deadline →
      Fares task interval deadline (earlier ++ [last]) [] (task.verdict last.outcome)
  | left {polls : List Poll} {back : History} {result : Except Fault Unit} :
      back ≠ [] → (∀ poll ∈ polls, poll.outcome = .ok .inProgress) →
      Fares task interval deadline polls back result

theorem Fares.cons {poll : Poll} (hgoes : poll.GoesOn interval deadline)
    (h : Fares task interval deadline polls back result) :
    Fares task interval deadline (poll :: polls) back result := by
  cases h with
  | ended hearlier hlast => exact .ended (List.forall_mem_cons.mpr ⟨hgoes, hearlier⟩) hlast
  | left hback hpolls => exact .left hback (List.forall_mem_cons.mpr ⟨hgoes.outcome_eq, hpolls⟩)

/-- A pause that is not over has asked for the time at most. -/
theorem Pause.clock_of_open {pause middle left : History} {now : Time} (h : Pause interval pause)
    (hleft : left ≠ []) (hsplit : ⟨.clock, now⟩ :: pause = middle ++ left) :
    ∀ event ∈ middle, event.question = .clock := by
  have hclock : ∀ event ∈ List.dropLast (⟨.clock, now⟩ :: pause), event.question = .clock := by
    cases h <;> simp
  rw [hsplit, List.dropLast_append_of_ne_nil hleft] at hclock
  exact (List.forall_mem_append.mp hclock).1

section Ends

variable {asked rest : List Timed} {outcome : Except Fault TaskStatus}

/-- A wait that ends behind an answer. -/
theorem fares_of_last (hasked : (client.taskStatus task).run.Ends (events asked) outcome)
    (hrest : ∀ event ∈ events rest, event.question = .clock)
    (hstops : ¬ Poll.GoesOn ⟨began, ended began asked, outcome⟩ interval deadline) :
    ∃ polls, Polls client task interval began (asked ++ rest) polls ∧
      Fares task interval deadline polls [] (task.verdict outcome) :=
  ⟨_, .last hasked hrest, .ended (List.forall_mem_nil _) hstops⟩

/-- A log that breaks off in a pause. -/
theorem fares_of_pausing (hasked : (client.taskStatus task).run.Ends (events asked) (.ok .inProgress))
    (hrest : ∀ event ∈ events rest, event.question = .clock) (hback : back ≠ []) :
    ∃ polls, Polls client task interval began (asked ++ rest) polls ∧
      Fares task interval deadline polls back result :=
  ⟨_, .last hasked hrest, .left hback (List.forall_mem_singleton.mpr rfl)⟩

/-- A log that breaks off in a question. -/
theorem fares_of_asking {left : History} (hleft : left ≠ [])
    (hasked : (client.taskStatus task).run.Ends (events log ++ left) outcome) (hback : back ≠ []) :
    ∃ polls, Polls client task interval began log polls ∧ Fares task interval deadline polls back result := by
  refine ⟨[], .asking ?_, .left hback (List.forall_mem_nil _)⟩
  rintro front rest given rfl hfront
  rw [events_append, List.append_assoc] at hasked
  exact hleft (List.append_eq_nil_iff.mp (hfront.unique hasked).1).2

/-- A log that breaks off behind an answer with which no interval fits in any more, or before it, or does not
break off. -/
theorem fares_of_late {asked : History} {now : Time}
    (hasked : (client.taskStatus task).run.Ends asked (.ok .inProgress))
    (hlate : ∃ moment ∈ deadline, moment < now + interval) (hpaced : Paced began log)
    (hwhole : events log ++ back = asked ++ [⟨.clock, now⟩]) :
    ∃ polls, Polls client task interval began log polls ∧
      Fares task interval deadline polls back (task.verdict (.ok .inProgress)) := by
  rcases cut_at hwhole with ⟨left, hleft, rfl, rfl⟩ | ⟨middle, hlog, hmiddle⟩
  · exact fares_of_asking hleft hasked (List.append_ne_nil_of_left_ne_nil hleft _)
  obtain ⟨asking, rest, rfl, rfl, rfl⟩ := List.map_eq_append_iff.mp hlog
  rcases List.append_eq_singleton_iff.mp hmiddle.symm with ⟨hnothing, rfl⟩ | ⟨hclock, rfl⟩
  · obtain rfl := List.map_eq_nil_iff.mp hnothing
    exact fares_of_pausing hasked (List.forall_mem_nil _) (List.cons_ne_nil _ _)
  · obtain ⟨rest, rfl, hnothing, hnow, -⟩ := paced_cons hclock (paced_append.mp hpaced).2 not_false
    obtain rfl : now = ended began asking := hnow
    obtain rfl := List.map_eq_nil_iff.mp hnothing
    refine fares_of_last hasked (List.forall_mem_singleton.mpr rfl) fun hgoes => ?_
    obtain ⟨moment, hmem, hlate⟩ := hlate
    exact Nat.not_le_of_lt hlate (hgoes.in_time moment hmem)

end Ends

/-- Unless it has used all its questions up, a wait goes by its answers. The induction is on the questions. -/
theorem fares_of_pollTask (hpaced : Paced began log)
    (h : (client.pollTask task interval deadline questions).run.Ends (events log ++ back) result) :
    (∃ polls, Polls client task interval began log polls ∧ Fares task interval deadline polls back result) ∨
      ∃ polls, Stretch client task interval deadline began log polls ∧ polls.length = questions := by
  induction questions generalizing began log with
  | zero =>
      obtain ⟨hnothing, -⟩ := ends_pure_iff.mp h
      obtain rfl := List.map_eq_nil_iff.mp (List.append_eq_nil_iff.mp hnothing).1
      exact .inr ⟨[], .nil, rfl⟩
  | succ questions ih =>
      generalize hwhole : events log ++ back = history at h
      cases pollTask_cases h with
      | settled hasked hsettled =>
          obtain rfl := hwhole
          by_cases hback : back = []
          · obtain rfl := hback
            rw [List.append_nil] at hasked
            rw [← List.append_nil log]
            exact .inl (fares_of_last hasked (List.forall_mem_nil _) fun hgoes => hsettled hgoes.outcome_eq)
          · exact .inl (fares_of_asking hback hasked hback)
      | @late asked now hasked hlate =>
          exact .inl (fares_of_late hasked hlate hpaced hwhole)
      | @again asked pause rest now _ hasked hfits hpause hrest =>
          rcases cut_at hwhole with ⟨left, hleft, rfl, rfl⟩ | ⟨middle, hlog, hmiddle⟩
          · exact .inl (fares_of_asking hleft hasked (List.append_ne_nil_of_left_ne_nil hleft _))
          rw [← List.cons_append] at hmiddle
          rcases cut_at hmiddle.symm with ⟨left, hleft, hpausing, rfl⟩ | ⟨behind, rfl, rfl⟩
          · obtain ⟨asking, pausing, rfl, rfl, rfl⟩ := List.map_eq_append_iff.mp hlog
            exact .inl (fares_of_pausing hasked (hpause.clock_of_open hleft hpausing)
              (List.append_ne_nil_of_left_ne_nil hleft _))
          obtain ⟨asking, pausing, later, rfl, rfl, hpausing, rfl, rfl, hlater⟩ :=
            exists_round hlog hpause hpaced
          rcases ih hlater hrest with ⟨polls, hpolls, hfares⟩ | ⟨polls, hstretch, rfl⟩
          · exact .inl ⟨_, .next hasked hpausing hpause hpolls, hfares.cons ⟨rfl, hfits⟩⟩
          · exact .inr ⟨_, .cons hasked ⟨rfl, hfits⟩ hpausing hpause hstretch, rfl⟩

/-- The first answer other than that the task is in progress, with no answer before it behind which the wait does
not go on. -/
def Decides (interval : Time) (deadline : Option Time) (polls : List Poll) (poll : Poll) : Prop :=
  ∃ earlier later, polls = earlier ++ poll :: later ∧
    (∀ other ∈ earlier, other.GoesOn interval deadline) ∧ poll.outcome ≠ .ok .inProgress

/-- What a wait gives, if anything, by the answers that it has got. -/
structure Verdict (task : Task) (interval : Time) (deadline : Option Time) (polls : List Poll)
    (given : Option (Except Fault Unit)) : Prop where
  ok_iff : given = some (.ok ()) ↔
    ∃ poll, Decides interval deadline polls poll ∧ poll.outcome = .ok .complete
  of_notFound {poll : Poll} : Decides interval deadline polls poll → poll.outcome = .ok .notFound →
    given = some (.error (.client s!"background task {task.id} not found"))
  of_fault {poll : Poll} {fault : Fault} : Decides interval deadline polls poll →
    poll.outcome = .error fault → given = some (.error fault)
  of_none {result : Except Fault Unit} : (∀ poll, ¬ Decides interval deadline polls poll) →
    given = some result →
      (∃ poll ∈ polls, poll.outcome = .ok .inProgress ∧ ∃ moment ∈ deadline, moment < poll.ended + interval) ∧
      ∃ fault, result = .error fault ∧ fault.kind = .timeout ∧
        fault.message = some s!"background task {task.id} still running"

variable {earlier : List Poll} {last poll : Poll}

/-- Only the last question can decide. -/
theorem decides_iff (hearlier : ∀ poll ∈ earlier, poll.GoesOn interval deadline) :
    Decides interval deadline (earlier ++ [last]) poll ↔ poll = last ∧ last.outcome ≠ .ok .inProgress := by
  constructor
  · rintro ⟨before, later, hpolls, -, hdecided⟩
    rcases split_at hpolls.symm with ⟨rest, rfl⟩ | ⟨middle, -, hlast⟩
    · have hgoes := hearlier poll (List.mem_append_right _ List.mem_cons_self)
      exact absurd hgoes.outcome_eq hdecided
    · obtain ⟨-, hlast⟩ | ⟨-, hnothing⟩ := List.append_eq_singleton_iff.mp hlast.symm
      · obtain ⟨rfl, -⟩ := List.cons.inj hlast
        exact ⟨rfl, hdecided⟩
      · cases hnothing
  · rintro ⟨rfl, hdecided⟩
    exact ⟨earlier, [], rfl, hearlier, hdecided⟩

theorem verdict_of_last (hearlier : ∀ poll ∈ earlier, poll.GoesOn interval deadline)
    (hlast : ¬ last.GoesOn interval deadline) :
    Verdict task interval deadline (earlier ++ [last]) (some (task.verdict last.outcome)) where
  ok_iff := by
    rw [Option.some.injEq, Task.verdict_eq_ok_iff]
    constructor
    · intro hcomplete
      exact ⟨last, (decides_iff hearlier).mpr ⟨rfl, hcomplete ▸ nofun⟩, hcomplete⟩
    · rintro ⟨poll, hdecides, hcomplete⟩
      obtain ⟨rfl, -⟩ := (decides_iff hearlier).mp hdecides
      exact hcomplete
  of_notFound hdecides houtcome := by
    obtain ⟨rfl, -⟩ := (decides_iff hearlier).mp hdecides
    rw [houtcome]
    rfl
  of_fault hdecides houtcome := by
    obtain ⟨rfl, -⟩ := (decides_iff hearlier).mp hdecides
    rw [houtcome]
    rfl
  of_none hnone hresult := by
    have hprogress : last.outcome = .ok .inProgress := by
      by_contra hdecided
      exact hnone last ((decides_iff hearlier).mpr ⟨rfl, hdecided⟩)
    have hlate : ∃ moment ∈ deadline, moment < last.ended + interval := by
      by_contra hearly
      push Not at hearly
      exact hlast ⟨hprogress, hearly⟩
    obtain rfl := Option.some.inj hresult
    rw [hprogress]
    exact ⟨⟨last, List.mem_append_right _ List.mem_cons_self, hprogress, hlate⟩, _, rfl, rfl, rfl⟩

theorem verdict_of_left (hpolls : ∀ poll ∈ polls, poll.outcome = .ok .inProgress) :
    Verdict task interval deadline polls none := by
  have hnone : ∀ poll, ¬ Decides interval deadline polls poll := by
    rintro poll ⟨earlier, later, rfl, -, hdecided⟩
    exact hdecided (hpolls poll (List.mem_append_right _ List.mem_cons_self))
  exact ⟨⟨nofun, fun ⟨poll, hdecides, _⟩ => absurd hdecides (hnone poll)⟩,
    fun hdecides => absurd hdecides (hnone _), fun hdecides => absurd hdecides (hnone _), nofun⟩

theorem Fares.verdict {given : Option (Except Fault Unit)} (h : Fares task interval deadline polls back result)
    (hgiven : ∀ value, given = some value ↔ back = [] ∧ result = value) :
    Verdict task interval deadline polls given := by
  cases h with
  | ended hearlier hlast =>
      rw [(hgiven _).mpr ⟨rfl, rfl⟩]
      exact verdict_of_last hearlier hlast
  | left hback hpolls =>
      rw [Option.eq_none_iff_forall_ne_some.mpr fun value hvalue => hback ((hgiven value).mp hvalue).1]
      exact verdict_of_left hpolls

/-! ### Sessions -/

variable {session : Session} {timeout : Option Time}

/-- A wait in a session looks at the clock first, and counts its time from then on. -/
theorem log_awaitTask (session : Session) (task : Task) (interval : Time) (timeout : Option Time)
    (limit : Time) :
    ∃ asked rest result,
      session.timedLog limit (session.awaitTask task interval timeout) =
        ⟨session.now, .clock, session.now⟩ :: asked ∧
      Paced session.now asked ∧
      (session.client.pollTask task interval (timeout.map (session.now + ·))
        (session.script.responses.length + 1)).run.Ends (events asked ++ rest) result ∧
      ∀ given, (session.runUntil limit (session.awaitTask task interval timeout)).1 = some given ↔
        rest = [] ∧ result = given := by
  obtain ⟨rest, result, hends, hgiven⟩ := ends_timedLog limit (session.client.pollTask task interval
    (timeout.map (session.now + ·)) (session.script.responses.length + 1)).run session
  refine ⟨_, rest, result, ?_, paced_timedLog limit _ session, hends, ?_⟩
  · show session.timedLog limit (.ask .clock _) = _
    rw [timedLog, waitFor]
    rfl
  · show ∀ given, (session.runUntil limit (.ask .clock _)).1 = some given ↔ _
    rw [runUntil, waitFor]
    exact hgiven

theorem le_deadline {now : Time} : ∀ moment ∈ timeout.map (now + ·), now ≤ moment := by
  intro moment hmoment
  obtain ⟨span, -, rfl⟩ := Option.map_eq_some_iff.mp hmoment
  exact Nat.le_add_right _ _

/-- What comes in time in each question comes in time in a wait. -/
theorem awaitTask_in_time (honce : OncePerQuestion session.client task mark)
    (hprompt : ∀ asked event rest outcome, mark event = true →
      (session.client.taskStatus task).run.Ends (asked ++ event :: rest) outcome →
      ∀ other ∈ asked ++ [event], ¬ other.question.Waits) (limit : Time) :
    ∀ timed ∈ session.timedLog limit (session.awaitTask task interval timeout), mark timed.event = true →
      ∀ moment ∈ timeout.map (session.now + ·), timed.time ≤ moment := by
  intro timed hmem hmark moment hmoment
  obtain ⟨asked, rest, result, hlog, hpaced, hends, -⟩ := log_awaitTask session task interval timeout limit
  rw [hlog] at hmem
  rcases List.mem_cons.mp hmem with rfl | hmem
  · rw [honce.clock] at hmark
    cases hmark
  obtain ⟨before, after, rfl⟩ := List.append_of_mem hmem
  rw [events_append, List.append_assoc] at hends
  rw [List.append_cons, paced_append] at hpaced
  exact in_time honce hmark (fun asked rest outcome => hprompt asked _ rest outcome hmark) hpaced.1 hends
    le_deadline hmoment

/-- So many questions at most fit in a wait that has a timeout. -/
theorem awaitTask_countP_le (honce : OncePerQuestion session.client task mark) (hinterval : 0 < interval)
    {span : Time} (limit : Time) :
    (events (session.timedLog limit (session.awaitTask task interval (some span)))).countP mark ≤
      span / interval + 1 := by
  obtain ⟨asked, rest, result, hlog, hpaced, hends, -⟩ := log_awaitTask session task interval (some span) limit
  rw [hlog]
  show List.countP mark (⟨.clock, session.now⟩ :: events asked) ≤ _
  rw [List.countP_cons_of_neg (by rw [honce.clock]; exact Bool.false_ne_true)]
  exact countP_le honce hinterval hpaced hends

/-- A wait cannot use all its questions up, since each that is answered takes one of the replies of the gateway,
and it has more questions. -/
theorem fares_of_awaitTask {limit : Time} (hlimit : session.now ≤ limit) :
    ∃ asked polls back result,
      session.timedLog limit (session.awaitTask task interval timeout) =
        ⟨session.now, .clock, session.now⟩ :: asked ∧
      Polls session.client task interval session.now asked polls ∧
      Fares task interval (timeout.map (session.now + ·)) polls back result ∧
      ∀ given, (session.runUntil limit (session.awaitTask task interval timeout)).1 = some given ↔
        back = [] ∧ result = given := by
  have hreplies := replies_timedLog hlimit (session.awaitTask task interval timeout)
  obtain ⟨asked, back, result, hlog, hpaced, hends, hgiven⟩ :=
    log_awaitTask session task interval timeout limit
  rcases fares_of_pollTask hpaced hends with ⟨polls, hpolls, hfares⟩ | ⟨polls, hstretch, hlength⟩
  · exact ⟨asked, polls, back, result, hlog, hpolls, hfares, hgiven⟩
  · rw [hlog] at hreplies
    have hcount := ofReplies_isReply.once.countP_of_stretch hstretch
    change (events asked).countP Event.isReply ≤ _ at hreplies
    omega

/-- A wait for the end of a task succeeds exactly if the first answer other than that the task is in progress is
that it is complete, and no answer before it came when an interval did not fit in any more. It asks no question
behind the deadline, and no more than fit in before it. Of its questions each begins in time; a client that has
to prove who it is may yet wait for its token, and hand the request over later. -/
theorem awaitTask_verdict (session : Session) (task : Task) (interval : Time) (timeout : Option Time)
    {limit : Time} (hlimit : session.now ≤ limit) :
    let log := session.timedLog limit (session.awaitTask task interval timeout)
    let given := (session.runUntil limit (session.awaitTask task interval timeout)).1
    let deadline := timeout.map (session.now + ·)
    (∃ first asked polls, log = first :: asked ∧
        Polls session.client task interval session.now asked polls ∧
        Verdict task interval deadline polls given) ∧
      (∀ timed ∈ log, timed.event.draws = true → ∀ moment ∈ deadline, timed.time ≤ moment) ∧
      (session.client.config.credentials.isNone = true →
        ∀ timed ∈ log, timed.event.hands = true → ∀ moment ∈ deadline, timed.time ≤ moment) ∧
      ∀ span ∈ timeout, 0 < interval →
        (events log).countP Event.draws ≤ span / interval + 1 ∧
          (events log).countP Event.hands ≤ span / interval + 1 := by
  intro log given deadline
  refine ⟨?_, ?_, ?_, ?_⟩
  · obtain ⟨asked, polls, back, result, hlog, hpolls, hfares, hgiven⟩ := fares_of_awaitTask hlimit
    exact ⟨_, asked, polls, hlog, hpolls, hfares.verdict hgiven⟩
  · exact awaitTask_in_time (once_draws _ task) (fun _ _ _ _ => prompt_before_draw) limit
  · intro hnone
    exact awaitTask_in_time ofReplies_hands.once (fun _ _ _ _ => prompt_before_hand hnone) limit
  · rintro span rfl hinterval
    exact ⟨awaitTask_countP_le (once_draws _ task) hinterval limit,
      awaitTask_countP_le ofReplies_hands.once hinterval limit⟩

/-- A session in which a task is complete when it is asked for the third time, and each answer takes five
milliseconds. -/
def ripeningSession : Session :=
  .start bareClient { responses := [1, 1, 2].map fun status =>
    ⟨some 5, .ok { taskStatus := some status }⟩ }

/-- With an interval of ten the third question begins at the deadline itself, and the answer comes behind it. -/
theorem third_answer_awaited :
    let wait := ripeningSession.awaitTask { id := 7, isScan := false } 10 (some 30)
    let log := ripeningSession.timedLog patience wait
    (ripeningSession.runUntil patience wait).1 = some (.ok ()) ∧ (events log).countP Event.draws = 3 ∧
      (∃ first asked polls poll, log = first :: asked ∧
        Polls bareClient { id := 7, isScan := false } 10 0 asked polls ∧
        Decides 10 (some 30) polls poll ∧ poll.outcome = .ok .complete) ∧
      ∀ timed ∈ log, timed.event.draws = true → timed.time ≤ 30 := by
  intro wait log
  have hok : (ripeningSession.runUntil patience wait).1 = some (.ok ()) := by decide +kernel
  have hdraws : (events log).countP Event.draws = 3 := by decide +kernel
  obtain ⟨⟨first, asked, polls, hlog, hpolls, hverdict⟩, hearly, -⟩ :=
    awaitTask_verdict ripeningSession { id := 7, isScan := false } 10 (some 30) (Nat.zero_le patience)
  obtain ⟨poll, hdecides, hcomplete⟩ := hverdict.ok_iff.mp hok
  exact ⟨hok, hdraws, ⟨first, asked, polls, poll, hlog, hpolls, hdecides, hcomplete⟩,
    fun timed hmem hmark => hearly timed hmem hmark 30 rfl⟩

end Client
end RecordGateway
