import RecordGateway.Proofs.Session.Schedule

/-!
When a session answers. The clock moves only when nothing else can be done, and then to the next moment at
which something is due; so whoever waits is woken no later than at a moment that it waits for, and a question
for which there is nothing to wait is answered at once (`follows_of_waitFor`). What a call asks and is told,
with the time of each answer, is its `timedLog`. In it each answer follows the one before in this way
(`paced_timedLog`).
-/

namespace RecordGateway

/-- Whether the answer to a question may be some time in coming. -/
def Ask.Waits : Ask → Prop
  | .wait .. | .credential _ | .offer .. | .receive _ => True
  | _ => False

/-- An answer that speaks of the time speaks of the moment at which it is given. -/
def Event.ToldAt (now : Time) : Event → Prop
  | ⟨.clock, told⟩ => told = now
  | ⟨.wait due limits, waited⟩ =>
    (waited = Waited.arrived → ∃ moment ∈ due, moment ≤ now) ∧
      (waited = Waited.timedOut → ∃ moment ∈ limits.deadline, moment ≤ now)
  | _ => True

/-- Whether the event is a request with a reply of the gateway, whatever the reply says. -/
def Event.isReply : Event → Bool
  | ⟨.send _, ⟨_, .ok _⟩⟩ => true
  | _ => false

namespace Session

/-- A question that was answered, and when. -/
structure Timed where
  time : Time
  event : Event

/-- An answer follows a question that is asked at the moment `began`: it does not come before, nor later than
the moments that whoever asked is woken at, and it is right at its own time. -/
structure Timed.Follows (timed : Timed) (began : Time) : Prop where
  began_le : began ≤ timed.time
  le_wake : ∀ moment ∈ wakeTimes timed.event.question, timed.time ≤ max began moment
  at_once : ¬ timed.event.question.Waits → timed.time = began
  told : timed.event.ToldAt timed.time
  honours : timed.event.HonoursScope

variable {session final : Session} {seen seen' : Option Nat} {question : Ask} {answer : question.Answer}

/-! ### One question -/

theorem hasCome_iff {moment : Option Time} :
    session.hasCome moment = true ↔ ∃ come ∈ moment, come ≤ session.now := by
  cases moment <;> simp [hasCome]

theorem hasCome_of_waitEnd? {due : Option Time} {limits : Limits} {waited : Waited}
    (h : session.waitEnd? due limits = some waited) :
    (waited = Waited.arrived → session.hasCome due = true) ∧
      (waited = Waited.timedOut → session.hasCome limits.deadline = true) := by
  unfold waitEnd? at h
  constructor <;> grind

theorem not_hasCome_of_waitEnd? {due : Option Time} {limits : Limits}
    (h : session.waitEnd? due limits = none) :
    session.hasCome due = false ∧ session.hasCome limits.deadline = false := by
  unfold waitEnd? at h
  constructor <;> grind

theorem toldAt_of_poll (h : session.poll seen question = .answered answer final) :
    Event.ToldAt session.now ⟨question, answer⟩ := by
  cases question with
  | clock =>
      cases h
      rfl
  | wait due limits =>
      rw [poll] at h
      cases hend : session.waitEnd? due limits with
      | none =>
          rw [hend] at h
          cases h
      | some waited =>
          rw [hend] at h
          cases h
          obtain ⟨harrived, htimedOut⟩ := hasCome_of_waitEnd? hend
          exact ⟨fun h => hasCome_iff.mp (harrived h), fun h => hasCome_iff.mp (htimedOut h)⟩
  | _ => trivial

theorem not_hasCome_of_pollCredential {limits : Limits}
    (h : session.pollCredential seen limits = .waiting seen' final) :
    session.hasCome limits.deadline = false := by
  unfold pollCredential at h
  have hrenew : session.renew.hasCome limits.deadline = session.hasCome limits.deadline := rfl
  grind

/-- Whoever waits has not reached the moments that it is woken at. -/
theorem lt_wake_of_waiting (h : session.poll seen question = .waiting seen' final) :
    question.Waits ∧ ∀ moment ∈ wakeTimes question, session.now < moment := by
  have hahead : ∀ {moment : Option Time}, session.hasCome moment = false →
      ∀ come ∈ moment.toList, session.now < come := by
    intro moment hcome come hmem
    refine Nat.lt_of_not_le fun hle => ?_
    rw [hasCome_iff.mpr ⟨come, Option.mem_toList.mp hmem, hle⟩] at hcome
    cases hcome
  cases question with
  | wait due limits =>
      rw [poll] at h
      cases hend : session.waitEnd? due limits with
      | none =>
          obtain ⟨hdue, hdeadline⟩ := not_hasCome_of_waitEnd? hend
          exact ⟨trivial, List.forall_mem_append.mpr ⟨hahead hdue, hahead hdeadline⟩⟩
      | some waited =>
          rw [hend] at h
          cases h
  | credential limits => exact ⟨trivial, hahead (not_hasCome_of_pollCredential h)⟩
  | offer => exact ⟨trivial, List.forall_mem_nil _⟩
  | receive => exact ⟨trivial, List.forall_mem_nil _⟩
  | openStream call =>
      rw [poll] at h
      split at h <;> cases h
  | _ => cases h

theorem now_of_poll {polled : Polled question.Answer} (h : session.poll seen question = polled) :
    polled.session.now = session.now := by
  rw [← h]
  exact now_poll session seen question

theorem follows_of_poll (h : session.poll seen question = .answered answer final) :
    (⟨final.now, question, answer⟩ : Timed).Follows session.now := by
  have hnow : final.now = session.now := now_of_poll h
  rw [hnow]
  exact ⟨Nat.le_refl _, fun _ _ => Nat.le_max_left _ _, fun _ => rfl, toldAt_of_poll h,
    honoursScope_of_poll h⟩

theorem nextMoment?_le {moment wake : Time} (h : session.nextMoment? question = some moment)
    (hwake : wake ∈ wakeTimes question) (hlater : session.now < wake) : moment ≤ wake := by
  rw [nextMoment?, List.min?_eq_some_iff] at h
  refine h.2 wake (List.mem_filter.mpr ⟨List.mem_append_left _ hwake, ?_⟩)
  exact decide_eq_true hlater

/-- Letting time pass until a question is answered. The induction follows the moments at which something
happens: the question is still open, so none of its own moments has been passed. -/
theorem follows_of_waitFor {limit now : Time} (hnow : session.now = now)
    (h : session.waitFor limit now seen question = (some answer, final)) :
    (⟨final.now, question, answer⟩ : Timed).Follows now := by
  fun_induction Session.waitFor limit now session seen question with
  | case1 now session seen given after hpoll =>
      obtain ⟨hgiven, rfl⟩ := Prod.mk.inj h
      obtain rfl := Option.some.inj hgiven
      rw [← hnow]
      exact follows_of_poll hpoll
  | case3 now session seen seen' after hpoll settled given last hagain =>
      obtain ⟨hgiven, rfl⟩ := Prod.mk.inj h
      obtain rfl := Option.some.inj hgiven
      have hsettled : settled.now = now :=
        (steady_now.settle after).trans ((now_of_poll hpoll).trans hnow)
      rw [← hsettled]
      exact follows_of_poll hagain
  | case6 now session seen seen' after hpoll settled seen'' last hagain moment hnext hmoment ih =>
      have hsettled : settled.now = now :=
        (steady_now.settle after).trans ((now_of_poll hpoll).trans hnow)
      have hlast : last.now = now := (now_of_poll hagain).trans hsettled
      obtain ⟨hwaits, hopen⟩ := lt_wake_of_waiting hagain
      obtain ⟨hbegan, hwake, -, htold, hhonours⟩ := ih rfl h
      refine ⟨Nat.le_trans (Nat.le_of_lt hmoment.1) hbegan, fun wake hmem => ?_,
        fun hnot => absurd hwaits hnot, htold, hhonours⟩
      -- The next moment is the earliest one ahead, and each moment of this question is still ahead.
      have hlater := hopen wake hmem
      rw [hsettled, ← hlast] at hlater
      exact Nat.le_trans (hwake wake hmem)
        (Nat.max_le.mpr ⟨Nat.le_trans (nextMoment?_le hnext hmem hlater) (Nat.le_max_right _ _),
          Nat.le_max_right _ _⟩)
  | _ => cases (Prod.mk.inj h).1

/-! ### Calls -/

variable {α : Type}

/-- What a call asks and is told, and when, as far as there is time. -/
def timedLog (limit : Time) : Flow α → Session → List Timed
  | .done _, _ => []
  | .ask question next, session =>
    match session.waitFor limit session.now none question with
    | (some answer, after) => ⟨after.now, question, answer⟩ :: timedLog limit (next answer) after
    | (none, _) => []

/-- What was asked and answered. -/
def events (log : List Timed) : History :=
  log.map Timed.event

theorem events_append (front back : List Timed) : events (front ++ back) = events front ++ events back :=
  List.map_append

/-- Each answer follows the one before, and the first one follows a question at the moment `began`. -/
def Paced : Time → List Timed → Prop
  | _, [] => True
  | began, timed :: later => timed.Follows began ∧ Paced timed.time later

/-- When the last answer comes; `began` if there is none. -/
def ended : Time → List Timed → Time
  | began, [] => began
  | _, timed :: later => ended timed.time later

theorem paced_append {began : Time} {front back : List Timed} :
    Paced began (front ++ back) ↔ Paced began front ∧ Paced (ended began front) back := by
  induction front generalizing began with
  | nil => exact (and_iff_right trivial).symm
  | cons timed front ih =>
      show timed.Follows began ∧ Paced timed.time (front ++ back) ↔ _
      rw [ih, ← and_assoc]
      rfl

variable {began limit : Time} {log : List Timed}

theorem ended_append (began : Time) (front back : List Timed) :
    ended began (front ++ back) = ended (ended began front) back := by
  induction front generalizing began with
  | nil => rfl
  | cons timed front ih => exact ih timed.time

theorem le_ended (hpaced : Paced began log) : began ≤ ended began log := by
  induction log generalizing began with
  | nil => exact Nat.le_refl _
  | cons timed later ih => exact Nat.le_trans hpaced.1.began_le (ih hpaced.2)

theorem ended_eq (hpaced : Paced began log) (hstill : ∀ event ∈ events log, ¬ event.question.Waits) :
    ended began log = began := by
  induction log generalizing began with
  | nil => rfl
  | cons timed later ih =>
      obtain ⟨hfirst, hlater⟩ := hpaced
      obtain ⟨hnot, hstill⟩ := List.forall_mem_cons.mp hstill
      exact (ih hlater hstill).trans (hfirst.at_once hnot)

/-- A question that is answered at once takes no time. -/
theorem paced_cons {event : Event} {rest : History} (hlog : events log = event :: rest)
    (hpaced : Paced began log) (hnot : ¬ event.question.Waits) :
    ∃ later, log = ⟨began, event⟩ :: later ∧ events later = rest ∧ event.ToldAt began ∧
      Paced began later := by
  obtain ⟨⟨time, told⟩, later, rfl, rfl, hrest⟩ := List.map_eq_cons_iff.mp hlog
  obtain ⟨hfirst, hlater⟩ := hpaced
  obtain rfl : time = began := hfirst.at_once hnot
  exact ⟨later, rfl, hrest, hfirst.told, hlater⟩

/-- Whoever is always woken by `limit` has all answers by then, or, if it is late already, at once. -/
theorem ended_le (hpaced : Paced began log) (hwoken : ∀ event ∈ events log, event.question.Waits →
    ∃ moment ∈ wakeTimes event.question, moment ≤ limit) :
    began ≤ ended began log ∧ ended began log ≤ max began limit := by
  refine ⟨le_ended hpaced, ?_⟩
  induction log generalizing began with
  | nil => exact Nat.le_max_left _ _
  | cons timed later ih =>
      obtain ⟨hfirst, hlater⟩ := hpaced
      obtain ⟨hwake, hwoken⟩ := List.forall_mem_cons.mp hwoken
      have htime : timed.time ≤ max began limit := by
        by_cases hwaits : timed.event.question.Waits
        · obtain ⟨moment, hmem, hmoment⟩ := hwake hwaits
          exact Nat.le_trans (hfirst.le_wake moment hmem) (Nat.max_le.mpr
            ⟨Nat.le_max_left _ _, Nat.le_trans hmoment (Nat.le_max_right _ _)⟩)
        · rw [hfirst.at_once hwaits]
          exact Nat.le_max_left _ _
      refine Nat.le_trans (ih hlater hwoken) ?_
      exact Nat.max_le.mpr ⟨htime, Nat.le_max_right _ _⟩

theorem paced_timedLog (limit : Time) (flow : Flow α) (session : Session) :
    Paced session.now (session.timedLog limit flow) := by
  induction flow generalizing session with
  | done value => trivial
  | ask question next ih =>
      rw [timedLog]
      rcases hwait : session.waitFor limit session.now none question with ⟨_ | answer, after⟩
      · trivial
      · exact ⟨follows_of_waitFor rfl hwait, ih answer after⟩

/-- The log of a call is a history of it, or the beginning of one where time was too short. -/
theorem ends_timedLog (limit : Time) (flow : Flow α) (session : Session) :
    ∃ back value, flow.Ends (events (session.timedLog limit flow) ++ back) value ∧
      ∀ given, (session.runUntil limit flow).1 = some given ↔ back = [] ∧ value = given := by
  induction flow generalizing session with
  | done value =>
      refine ⟨[], value, .done value, fun given => ?_⟩
      rw [runUntil, Option.some.injEq]
      exact (and_iff_right rfl).symm
  | ask question next ih =>
      rw [timedLog, runUntil]
      rcases hwait : session.waitFor limit session.now none question with ⟨_ | answer, after⟩
      · obtain ⟨back, -, hends⟩ := (Flow.ask question next).ends_undisturbed
        refine ⟨back, _, hends, fun given => ?_⟩
        constructor
        · intro hnone
          cases hnone
        · rintro ⟨rfl, -⟩
          cases hends
      · obtain ⟨back, value, hends, hgiven⟩ := ih answer after
        exact ⟨back, value, .ask hends, hgiven⟩

/-- The requests that have been handed over remain noted, and the replies to come are only used up. -/
theorem steady_outbox : Steady fun session next => session.sent ⊆ next.sent ∧
    next.script.responses.length ≤ session.script.responses.length where
  refl _ := ⟨List.Subset.refl _, Nat.le_refl _⟩
  trans hfirst hsecond :=
    ⟨List.Subset.trans hfirst.1 hsecond.1, Nat.le_trans hsecond.2 hfirst.2⟩
  poll session seen question := by
    cases question with
    | credential limits =>
        rcases session_pollCredential session seen limits with hsame | hrenewed
        · rw [poll, hsame]
          exact ⟨List.Subset.refl _, Nat.le_refl _⟩
        · rw [poll, hrenewed]
          exact ⟨List.Subset.refl _, Nat.le_refl _⟩
    | wait due limits =>
        rw [poll]
        cases session.waitEnd? due limits <;> exact ⟨List.Subset.refl _, Nat.le_refl _⟩
    | send call =>
        rw [poll, takeResponse]
        rcases hresponses : (session.record call).script.responses with _ | ⟨response, rest⟩
        · exact ⟨List.subset_cons_self _ _, Nat.le_refl _⟩
        · refine ⟨List.subset_cons_self _ _, ?_⟩
          show rest.length ≤ (session.record call).script.responses.length
          rw [hresponses]
          exact Nat.le_succ _
    | openStream call =>
        rw [poll, takeStream]
        rcases (session.record call).script.streams with _ | ⟨_ | stream, rest⟩ <;>
          exact ⟨List.subset_cons_self _ _, Nat.le_refl _⟩
    | offer number item =>
        rw [poll]
        cases session.sets[number]? with
        | none => exact ⟨List.Subset.refl _, Nat.le_refl _⟩
        | some set =>
            dsimp only
            cases set.queue.offer? item <;> exact ⟨List.Subset.refl _, Nat.le_refl _⟩
    | receive number =>
        rw [poll]
        cases session.sets[number]? with
        | none => exact ⟨List.Subset.refl _, Nat.le_refl _⟩
        | some set =>
            dsimp only
            cases set.queue.receive? <;> exact ⟨List.Subset.refl _, Nat.le_refl _⟩
    | _ => exact ⟨List.Subset.refl _, Nat.le_refl _⟩
  refresh hstep := by
    obtain ⟨refresher, logins, made, rfl⟩ := stepRefresher_eq hstep
    exact ⟨List.Subset.refl _, Nat.le_refl _⟩
  fill _ _ _ _ := ⟨List.Subset.refl _, Nat.le_refl _⟩
  alarms _ _ := ⟨List.Subset.refl _, Nat.le_refl _⟩
  cancel _ := ⟨List.Subset.refl _, Nat.le_refl _⟩

theorem outbox_moveTo (session : Session) (moment : Time) : session.sent ⊆ (session.moveTo moment).sent ∧
    (session.moveTo moment).script.responses.length ≤ session.script.responses.length :=
  ⟨List.Subset.refl _, Nat.le_refl _⟩

theorem noted_takeResponse (session : Session) (call : Call) :
    ((session.record call).takeResponse.2.now, call) ∈ (session.record call).takeResponse.2.sent := by
  rw [takeResponse]
  cases (session.record call).script.responses <;> exact List.mem_cons_self

/-- What the log says was handed over at a time was handed over at that time. -/
theorem sent_of_timedLog {flow : Flow α} {now : Time} {call : Call}
    {reply : Delayed (Except Status Envelope.Response)} (hlimit : session.now ≤ limit)
    (hmem : ⟨now, .send call, reply⟩ ∈ session.timedLog limit flow) :
    (now, call) ∈ (session.runUntil limit flow).2.sent := by
  induction flow generalizing session with
  | done value => cases hmem
  | ask question next ih =>
      have hkeeps := steady_outbox.waitFor (fun _ _ _ => outbox_moveTo _ _) rfl hlimit none question
      rw [timedLog] at hmem
      rw [runUntil]
      rcases hwait : session.waitFor limit session.now none question with ⟨_ | answer, after⟩
      · rw [hwait] at hmem
        cases hmem
      · rw [hwait] at hmem hkeeps
        rcases List.mem_cons.mp hmem with heq | hmem
        · cases heq
          have hnoted : (after.now, call) ∈ after.sent := by
            rw [waitFor] at hwait
            obtain ⟨-, rfl⟩ := Prod.mk.inj hwait
            exact noted_takeResponse _ _
          exact (steady_outbox.runUntil (fun _ _ _ => outbox_moveTo _ _) _ hkeeps.2).1 hnoted
        · exact ih answer hkeeps.2 hmem

theorem length_of_reply {now : Time} {call : Call} {reply : Delayed (Except Status Envelope.Response)}
    (hreply : Event.isReply ⟨.send call, reply⟩ = true)
    (h : session.waitFor limit now none (.send call) = (some reply, final)) :
    final.script.responses.length + 1 ≤ session.script.responses.length := by
  rw [waitFor] at h
  obtain ⟨htaken, rfl⟩ := Prod.mk.inj h
  obtain rfl := Option.some.inj htaken
  rcases hresponses : (session.record call).script.responses with _ | ⟨response, rest⟩
  · rw [hresponses] at hreply
    cases hreply
  · show rest.length + 1 ≤ (session.record call).script.responses.length
    rw [hresponses]
    exact Nat.le_refl _

/-- Every reply in the log has been one of those that were to come. -/
theorem replies_timedLog (hlimit : session.now ≤ limit) (flow : Flow α) :
    (events (session.timedLog limit flow)).countP Event.isReply ≤ session.script.responses.length := by
  induction flow generalizing session with
  | done value => exact Nat.zero_le _
  | ask question next ih =>
      have hkeeps := steady_outbox.waitFor (fun _ _ _ => outbox_moveTo _ _) rfl hlimit none question
      rw [timedLog]
      rcases hwait : session.waitFor limit session.now none question with ⟨_ | answer, after⟩
      · exact Nat.zero_le _
      · rw [hwait] at hkeeps
        have hlater := ih answer hkeeps.2
        show (⟨question, answer⟩ :: events (after.timedLog limit (next answer))).countP _ ≤ _
        rw [List.countP_cons]
        split
        · next hreply =>
            cases question with
            | send call =>
                exact Nat.le_trans (Nat.add_le_add_right hlater 1) (length_of_reply hreply hwait)
            | _ => cases hreply
        · exact Nat.le_trans hlater hkeeps.1.2

end Session
end RecordGateway
