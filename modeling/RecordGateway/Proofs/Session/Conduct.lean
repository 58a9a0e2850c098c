import RecordGateway.Proofs.Flow.Traces
import RecordGateway.Proofs.Session.Schedule

/-!
How a flow goes on in a session while anything may happen beside it. A flow asks, and gets the answers that
the session gives at the moment (`Moment`); in between other activities go on, time passes, and scopes may be
cancelled, at any place but directly before a request is handed over (`Goes`). What was cancelled at one
moment is cancelled at all later ones (`Goes.later`), so nothing arrives under a cancelled scope
(`uncancelled_of_arrived`). Calls as the session makes them, and the filling of its record sets, go on in this
way (`goes_runUntil`, `goes_runActivity`).
-/

namespace RecordGateway

/-- Whether the next thing that a flow does is to hand a request over. -/
def Flow.AsksRequest {α : Type} : Flow α → Prop
  | .done _ => False
  | .ask question _ => question.IsRequest

instance : DecidablePred Ask.IsRequest
  | .send _ | .openStream _ => .isTrue trivial
  | .clock | .drawId | .drawTaskId | .isCancelled _ | .wait .. | .credential _ | .renewCredential
  | .offer .. | .receive _ => .isFalse id

instance {α : Type} : DecidablePred (Flow.AsksRequest (α := α))
  | .done _ => .isFalse id
  | .ask question _ => inferInstanceAs (Decidable question.IsRequest)

namespace Session

/-- A question that was answered, and the session at that moment. -/
structure Moment where
  session : Session
  event : Event

/-- Whether the session gives the answer at the moment. -/
def Moment.Fits (moment : Moment) : Prop :=
  ∃ seen after, moment.session.poll seen moment.event.question = .answered moment.event.answer after

/-- From one flow in a session another one is left in a later session, after the moments of the log. Whether
a call is cancelled and the request is handed over are one step, in which nothing comes between. -/
inductive Goes {α : Type} : Flow α → Session → List Moment → Flow α → Session → Prop where
  | stays (flow : Flow α) (session : Session) : Goes flow session [] flow session
  | answer {question : Ask} {next : question.Answer → Flow α} {seen : Option Nat}
      {answer : question.Answer} {session after final : Session} {log : List Moment} {rest : Flow α} :
      session.poll seen question = .answered answer after → Goes (next answer) after log rest final →
      Goes (.ask question next) session (⟨session, question, answer⟩ :: log) rest final
  | pass {flow rest : Flow α} {session after final : Session} {log : List Moment} :
      ¬ flow.AsksRequest → session.Later after → Goes flow after log rest final →
      Goes flow session log rest final

variable {α : Type} {flow rest : Flow α} {session middle final : Session} {log : List Moment}

/-! ### What was asked -/

def history (log : List Moment) : History :=
  log.map Moment.event

theorem Goes.trans {last : Flow α} {more : List Moment} (hfront : Goes flow session log rest middle)
    (hback : Goes rest middle more last final) : Goes flow session (log ++ more) last final := by
  induction hfront with
  | stays => exact hback
  | answer hpoll _ ih => exact .answer hpoll (ih hback)
  | pass hquestion hlater _ ih => exact .pass hquestion hlater (ih hback)

/-- However far a flow has gone, its log is the beginning of a history. -/
theorem Goes.ends (h : Goes flow session log rest final) :
    ∃ back value, flow.Ends (history log ++ back) value := by
  induction h with
  | stays flow =>
      obtain ⟨back, -, hends⟩ := flow.ends_undisturbed
      exact ⟨back, _, hends⟩
  | answer _ _ ih =>
      obtain ⟨back, value, hends⟩ := ih
      exact ⟨back, value, .ask hends⟩
  | pass _ _ _ ih => exact ih

/-- The log of a flow that has come to its end is its history. -/
theorem Goes.ends_of_done {value : α} (h : Goes flow session log (.done value) final) :
    flow.Ends (history log) value := by
  generalize hrest : Flow.done value = rest at h
  induction h with
  | stays =>
      subst hrest
      exact .done value
  | answer _ _ ih => exact .ask (ih hrest)
  | pass _ _ _ ih => exact ih hrest

theorem Goes.fits (h : Goes flow session log rest final) : ∀ moment ∈ log, moment.Fits := by
  induction h with
  | stays => exact List.forall_mem_nil _
  | answer hpoll _ ih => exact List.forall_mem_cons.mpr ⟨⟨_, _, hpoll⟩, ih⟩
  | pass _ _ _ ih => exact ih

/-! ### What was cancelled -/

theorem later_poll {question : Ask} {seen : Option Nat} {answer : question.Answer}
    (h : session.poll seen question = .answered answer final) : session.Later final := by
  have hlater := steady_later.poll session seen question
  rw [h] at hlater
  exact hlater

/-- All moments come after the beginning. -/
theorem Goes.later (h : Goes flow session log rest final) :
    ∀ moment ∈ log, session.Later moment.session := by
  induction h with
  | stays => exact List.forall_mem_nil _
  | answer hpoll _ ih =>
      refine List.forall_mem_cons.mpr ⟨later_refl _, fun moment hmem => ?_⟩
      exact (later_poll hpoll).trans (ih moment hmem)
  | pass _ hlater _ ih => exact fun moment hmem => hlater.trans (ih moment hmem)

theorem Goes.pairwise (h : Goes flow session log rest final) :
    log.Pairwise fun earlier moment => earlier.session.Later moment.session := by
  induction h with
  | stays => exact .nil
  | answer hpoll hrest ih =>
      exact .cons (fun moment hmem => (later_poll hpoll).trans (hrest.later moment hmem)) ih
  | pass _ _ _ ih => exact ih

theorem Later.uncancelled {scope : Scope} (h : session.Later final)
    (hfinal : final.scopeCancelled scope = false) : session.scopeCancelled scope = false :=
  Bool.eq_false_iff.mpr fun hcancelled =>
    Bool.eq_false_iff.mp hfinal (h.cancelled_of scope hcancelled)

/-- Where the last moment is not under cancellation, none is. -/
theorem Goes.uncancelled {earlier : List Moment} {last : Moment} {scope : Scope}
    (h : Goes flow session (earlier ++ [last]) rest final)
    (hlast : last.session.scopeCancelled scope = false) :
    ∀ moment ∈ earlier ++ [last], moment.session.scopeCancelled scope = false := by
  have hbefore := (List.pairwise_append.mp h.pairwise).2.2
  rw [List.forall_mem_append, List.forall_mem_singleton]
  refine ⟨fun moment hmem => ?_, hlast⟩
  exact (hbefore moment hmem last List.mem_cons_self).uncancelled hlast

/-- Whether the call is cancelled is looked at before it is looked at whether what it waits for is there. -/
theorem uncancelled_of_arrived {due : Option Time} {limits : Limits} {seen : Option Nat}
    (h : session.poll seen (.wait due limits) = .answered Waited.arrived final) :
    session.scopeCancelled limits.scope = false := by
  rw [poll, waitEnd?] at h
  refine Bool.eq_false_iff.mpr fun hcancelled => ?_
  rw [if_pos hcancelled] at h
  cases h

/-! ### What a session does -/

/-- A question that is not answered at once hands nothing over. -/
theorem not_isRequest_of_waiting {question : Ask} {seen seen' : Option Nat}
    (h : session.poll seen question = .waiting seen' final) : ¬ question.IsRequest := by
  intro hrequest
  cases question with
  | send call => cases h
  | openStream call =>
      rw [poll] at h
      split at h <;> cases h
  | _ => exact hrequest

theorem later_moveTo {moment : Time} (h : session.now ≤ moment) :
    session.Later (session.moveTo moment) :=
  ⟨h, fun scope hscope => by cases scope <;> exact hscope⟩

/-- Letting time pass until a question is answered puts nothing between a request and what was asked before
it. The induction follows the moments at which something happens. -/
theorem reached_of_waitFor {limit now : Time} {seen : Option Nat} {question : Ask}
    {answer : question.Answer} (hnow : session.now = now)
    (h : session.waitFor limit now seen question = (some answer, final)) :
    ∃ (reached : Session) (seen : Option Nat), reached.poll seen question = .answered answer final ∧
      session.Later reached ∧ (question.IsRequest → reached = session) := by
  fun_induction Session.waitFor limit now session seen question with
  | case1 now session seen given after hpoll =>
      obtain ⟨hgiven, rfl⟩ := Prod.mk.inj h
      obtain rfl := Option.some.inj hgiven
      exact ⟨session, seen, hpoll, later_refl session, fun _ => rfl⟩
  | case3 now session seen seen' after hpoll settled given last hagain =>
      obtain ⟨hgiven, rfl⟩ := Prod.mk.inj h
      obtain rfl := Option.some.inj hgiven
      have hafter := steady_later.poll session seen question
      rw [hpoll] at hafter
      exact ⟨settled, seen', hagain, hafter.trans (steady_later.settle after),
        fun hrequest => absurd hrequest (not_isRequest_of_waiting hpoll)⟩
  | case6 now session seen seen' after hpoll settled seen'' last hagain moment _ hmoment ih =>
      obtain ⟨reached, seen, hreached, hlater, -⟩ := ih rfl h
      refine ⟨reached, seen, hreached, ?_, fun hrequest =>
        absurd hrequest (not_isRequest_of_waiting hpoll)⟩
      obtain ⟨hround, hstill⟩ :=
        steady_later.round (congrArg Polled.session hpoll) (congrArg Polled.session hagain)
      refine (hround.trans (later_moveTo ?_)).trans hlater
      rw [hstill, hnow]
      exact Nat.le_of_lt hmoment.1
  | _ => cases (Prod.mk.inj h).1

/-- Calls go on in this way, as far as there is time. -/
theorem goes_runUntil (limit : Time) (flow : Flow α) (session : Session) :
    ∃ log rest last, Goes flow session log rest last ∧
      ∀ value, (session.runUntil limit flow).1 = some value →
        rest = .done value ∧ last = (session.runUntil limit flow).2 := by
  induction flow generalizing session with
  | done value =>
      refine ⟨[], _, _, .stays _ session, fun given hgiven => ?_⟩
      obtain rfl := Option.some.inj hgiven
      exact ⟨rfl, rfl⟩
  | ask question next ih =>
      rw [runUntil]
      rcases hwait : session.waitFor limit session.now none question with ⟨_ | answer, after⟩
      · refine ⟨[], _, _, .stays _ session, fun value hvalue => ?_⟩
        cases hvalue
      · obtain ⟨reached, seen, hpoll, hlater, hrequest⟩ := reached_of_waitFor rfl hwait
        obtain ⟨log, rest, last, hgoes, hvalue⟩ := ih answer after
        refine ⟨⟨reached, question, answer⟩ :: log, rest, last, ?_, hvalue⟩
        by_cases hquestion : question.IsRequest
        · obtain rfl := hrequest hquestion
          exact .answer hpoll hgoes
        · exact .pass hquestion hlater (.answer hpoll hgoes)

/-- A flow goes on at one moment as far as it can: the answers that it gets, what is left of it, and the
session then. -/
def advance : Flow α → Option Nat → Session → List Moment × Flow α × Session
  | .done value, _, session => ([], .done value, session)
  | .ask question next, seen, session =>
    match session.poll seen question with
    | .answered answer after =>
      let (log, rest, final) := advance (next answer) none after
      (⟨session, question, answer⟩ :: log, rest, final)
    | .waiting _ after => ([], .ask question next, after)
    | .broken _ => ([], .ask question next, session)

theorem goes_advance (flow : Flow α) (seen : Option Nat) (session : Session) :
    Goes flow session (advance flow seen session).1 (advance flow seen session).2.1
      (advance flow seen session).2.2 := by
  induction flow generalizing seen session with
  | done value => exact .stays _ session
  | ask question next ih =>
      rw [advance]
      cases hpoll : session.poll seen question with
      | answered answer after => exact .answer hpoll (ih answer none after)
      | waiting seen' after =>
          have hlater := steady_later.poll session seen question
          rw [hpoll] at hlater
          exact .pass (not_isRequest_of_waiting hpoll) hlater (.stays _ after)
      | broken after => exact .stays _ session

theorem eq_of_updateSet {number : Nat} {change : Set → Set} {set : Set}
    (h : (session.updateSet number change).sets[number]? = some set) : ∃ old, set = change old := by
  rw [updateSet, Array.getElem?_modify, if_pos rfl] at h
  obtain ⟨old, -, rfl⟩ := Option.map_eq_some_iff.mp h
  exact ⟨old, rfl⟩

/-- The filling of a set goes on in this way too: what is left of it waits, and can go on from there whatever
comes between. The induction is on the activity. -/
theorem goes_runActivity {number : Nat} {activity left : Flow Unit} {seen : Option Nat} {set : Set}
    (hset : (session.runActivity number activity seen).sets[number]? = some set)
    (hleft : set.activity = some left) :
    Goes activity session (advance activity seen session).1 left
        (session.runActivity number activity seen) ∧ ¬ left.AsksRequest := by
  induction activity generalizing seen session with
  | done value =>
      obtain ⟨old, rfl⟩ := eq_of_updateSet hset
      cases hleft
  | ask question next ih =>
      have hlater := steady_later.runActivity number (.ask question next) seen session
      rw [runActivity] at hset hlater ⊢
      rw [advance]
      cases hpoll : session.poll seen question with
      | answered answer after =>
          rw [hpoll] at hset
          obtain ⟨hgoes, hwaits⟩ := ih answer hset
          exact ⟨.answer hpoll hgoes, hwaits⟩
      | waiting seen' after =>
          rw [hpoll] at hset hlater
          obtain ⟨old, rfl⟩ := eq_of_updateSet hset
          obtain rfl := Option.some.inj hleft
          have hwaits := not_isRequest_of_waiting hpoll
          exact ⟨.pass hwaits hlater (.stays _ _), hwaits⟩
      | broken after =>
          rw [hpoll] at hset
          obtain ⟨old, rfl⟩ := eq_of_updateSet hset
          cases hleft

end Session
end RecordGateway
