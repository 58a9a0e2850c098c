import RecordGateway.Proofs.Flow.History
import RecordGateway.Session.Calls

/-!
What all steps of a session have in common. A session goes on in small steps: a question is asked, the
refresher goes on, a set is filled further, an alarm begins to wait or rings, and the clock moves. What
each of them respects (`Steady`), the whole schedule respects (`Steady.settle`, `Steady.runUntil`). A
question changes little but what it is about (`beside_poll`), and whatever happens, a scope that is
cancelled stays so (`steady_later`).
-/

namespace RecordGateway.Session

/-- The session after a question has been asked, whatever came of it. -/
def Polled.session {α : Type} : Polled α → Session
  | .answered _ session => session
  | .waiting _ session => session
  | .broken session => session

/-- A relation between sessions that every step at one moment respects. -/
structure Steady (later : Session → Session → Prop) : Prop where
  refl : ∀ session, later session session
  trans : ∀ {first second third}, later first second → later second third → later first third
  poll : ∀ session seen question, later session (session.poll seen question).session
  refresh : ∀ {session next : Session}, session.stepRefresher? = some next → later session next
  fill : ∀ session number change, (∀ set : Set, (change set).isCancelled = set.isCancelled) →
    later session (session.updateSet number change)
  alarms : ∀ (session : Session) alarms, later session { session with alarms }
  cancel : ∀ session : Session, later session session.cancel

/-- Only the contents of record sets, numbers to be drawn, and what the gateway has still to say differ. -/
structure Beside (session next : Session) : Prop where
  client_eq : next.client = session.client
  now_eq : next.now = session.now
  refresher_eq : next.refresher = session.refresher
  isCancelled_eq : next.isCancelled = session.isCancelled
  sets_eq : ∀ number : Nat,
    next.sets[number]?.map (·.isCancelled) = session.sets[number]?.map (·.isCancelled)

variable {session next : Session} {later : Session → Session → Prop}

/-! ### One question -/

theorem Beside.refl (session : Session) : session.Beside session :=
  ⟨rfl, rfl, rfl, rfl, fun _ => rfl⟩

theorem Beside.scopeCancelled_eq (h : session.Beside next) (scope : Scope) :
    next.scopeCancelled scope = session.scopeCancelled scope := by
  cases scope with
  | unlimited => rfl
  | session => exact h.isCancelled_eq
  | recordSet number =>
      rw [scopeCancelled, scopeCancelled, h.client_eq, h.isCancelled_eq, h.sets_eq]

theorem beside_updateSet (session : Session) (number : Nat) {change : Set → Set}
    (hchange : ∀ set, (change set).isCancelled = set.isCancelled) :
    session.Beside (session.updateSet number change) := by
  refine ⟨rfl, rfl, rfl, rfl, fun other => ?_⟩
  rw [updateSet, Array.getElem?_modify]
  split
  · rw [Option.map_map]
    congr 1
    funext set
    exact hchange set
  · rfl

/-- Looking at the access token does no more than to ask for a new one. -/
theorem session_pollCredential (session : Session) (seen : Option Nat) (limits : Limits) :
    (session.pollCredential seen limits).session = session ∨
      (session.pollCredential seen limits).session = session.renew := by
  unfold pollCredential
  grind [Polled.session]

/-- A question leaves most things as they are, but for a new access token that it may ask for. -/
theorem beside_poll (session : Session) (seen : Option Nat) (question : Ask) :
    session.Beside (session.poll seen question).session ∨
      session.renew.Beside (session.poll seen question).session := by
  cases question with
  | credential limits =>
      rcases session_pollCredential session seen limits with hsame | hrenewed
      · refine .inl ?_
        rw [poll, hsame]
        exact .refl session
      · refine .inr ?_
        rw [poll, hrenewed]
        exact .refl session.renew
  | renewCredential => exact .inr (.refl session.renew)
  | wait due limits =>
      rw [poll]
      cases session.waitEnd? due limits <;> exact .inl (.refl session)
  | send call =>
      rw [poll, takeResponse]
      cases (session.record call).script.responses <;>
        exact .inl ⟨rfl, rfl, rfl, rfl, fun _ => rfl⟩
  | openStream call =>
      rw [poll, takeStream]
      rcases (session.record call).script.streams with _ | ⟨_ | stream, rest⟩ <;>
        exact .inl ⟨rfl, rfl, rfl, rfl, fun _ => rfl⟩
  | offer number item =>
      rw [poll]
      cases session.sets[number]? with
      | none => exact .inl (.refl session)
      | some set =>
          dsimp only
          cases set.queue.offer? item with
          | none => exact .inl (.refl session)
          | some offered => exact .inl (beside_updateSet session number fun _ => rfl)
  | receive number =>
      rw [poll]
      cases session.sets[number]? with
      | none => exact .inl (.refl session)
      | some set =>
          dsimp only
          cases set.queue.receive? with
          | none => exact .inl (.refl session)
          | some received => exact .inl (beside_updateSet session number fun _ => rfl)
  | _ => exact .inl ⟨rfl, rfl, rfl, rfl, fun _ => rfl⟩

theorem now_poll (session : Session) (seen : Option Nat) (question : Ask) :
    (session.poll seen question).session.now = session.now := by
  rcases beside_poll session seen question with hbeside | hbeside
  · exact hbeside.now_eq
  · exact hbeside.now_eq

/-- Asking cancels nothing. -/
theorem scopeCancelled_poll (session : Session) (seen : Option Nat) (question : Ask) (scope : Scope) :
    (session.poll seen question).session.scopeCancelled scope = session.scopeCancelled scope := by
  rcases beside_poll session seen question with hbeside | hbeside
  · exact hbeside.scopeCancelled_eq scope
  · rw [hbeside.scopeCancelled_eq scope]
    cases scope <;> rfl

/-- The refresher minds nothing but logins. -/
theorem stepRefresher_eq (hstep : session.stepRefresher? = some next) :
    ∃ refresher logins made, next =
      { session with refresher, script := { session.script with logins }, logins := made } := by
  rw [stepRefresher?] at hstep
  cases hrefresher : session.refresher with
  | none =>
      rw [hrefresher] at hstep
      cases hstep
  | some refresher =>
      rw [hrefresher, Option.bind_eq_bind, Option.bind_some] at hstep
      split at hstep
      · obtain rfl := Option.some.inj hstep
        rw [makeLogin, takeLogin]
        cases session.script.logins <;> exact ⟨_, _, _, rfl⟩
      · obtain ⟨stepped, -, hnext⟩ := Option.bind_eq_some_iff.mp hstep
        obtain rfl := Option.some.inj hnext
        exact ⟨some stepped, session.script.logins, session.logins, rfl⟩

/-! ### All that happens at one moment -/

namespace Steady

variable (h : Steady later)
include h

theorem runRefresher (fuel : Nat) (session : Session) : later session (session.runRefresher fuel).1 := by
  induction fuel generalizing session with
  | zero => exact h.refl session
  | succ fuel ih =>
      rw [Session.runRefresher]
      cases hstep : session.stepRefresher? with
      | none => exact h.refl session
      | some next => exact h.trans (h.refresh hstep) (ih next)

theorem endActivity (session : Session) (number : Nat) : later session (session.endActivity number) :=
  h.fill session number _ fun _ => rfl

/-- The induction is on the activity: each question that is answered is one step. -/
theorem runActivity (number : Nat) (activity : Flow Unit) (seen : Option Nat) (session : Session) :
    later session (session.runActivity number activity seen) := by
  induction activity generalizing seen session with
  | done value => exact h.endActivity session number
  | ask question next ih =>
      have hpoll := h.poll session seen question
      rw [Session.runActivity]
      cases hpolled : session.poll seen question with
      | answered answer after =>
          rw [hpolled] at hpoll
          exact h.trans hpoll (ih answer none after)
      | waiting seen after =>
          rw [hpolled] at hpoll
          exact h.trans hpoll (h.fill after number _ fun _ => rfl)
      | broken after =>
          rw [hpolled] at hpoll
          exact h.trans hpoll (h.endActivity after number)

theorem runActivities (numbers : List Nat) (session : Session) :
    later session (session.runActivities numbers).1 := by
  induction numbers generalizing session with
  | nil => exact h.refl session
  | cons number rest ih =>
      rw [Session.runActivities]
      split
      · exact ih session
      · next set hset =>
          dsimp only
          split
          · exact ih session
          · next activity hactivity =>
              exact h.trans (h.runActivity number activity set.seen session) (ih _)

theorem runAlarm (session : Session) (alarm : Alarm) : later session (session.runAlarm alarm) := by
  have hahead := h.runActivities alarm.ahead session
  rw [Session.runAlarm]
  rcases hrun : session.runActivities alarm.ahead with ⟨after, could⟩
  rw [hrun] at hahead
  dsimp only
  split
  · exact h.trans hahead (h.cancel after)
  · exact h.trans hahead (h.alarms after _)

theorem runAlarms (session : Session) : later session session.runAlarms.1 := by
  have hfold : ∀ (alarms : List Alarm) (session : Session),
      later session (alarms.foldl Session.runAlarm session) := by
    intro alarms
    induction alarms with
    | nil => exact h.refl
    | cons alarm rest ih => exact fun session => h.trans (h.runAlarm session alarm) (ih _)
  exact h.trans (h.alarms session _) (hfold _ _)

theorem settleFrom (fuel : Nat) (session : Session) : later session (session.settleFrom fuel) := by
  induction fuel generalizing session with
  | zero => exact h.refl session
  | succ fuel ih =>
      have hround : ∀ numbers, later session
          ((session.runRefresher session.stepBound).1.runAlarms.1.runActivities numbers).1 :=
        fun numbers => h.trans (h.trans (h.runRefresher _ session) (h.runAlarms _))
          (h.runActivities numbers _)
      rw [Session.settleFrom]
      dsimp only
      split
      · exact h.trans (hround _) (ih _)
      · exact hround _

theorem settle (session : Session) : later session session.settle :=
  h.settleFrom session.stepBound session

end Steady

/-! ### Time -/

/-- The clock stands still while there is something to do. -/
theorem steady_now : Steady fun session next => next.now = session.now where
  refl _ := rfl
  trans hfirst hsecond := hsecond.trans hfirst
  poll := now_poll
  refresh hstep := by
    obtain ⟨refresher, logins, made, rfl⟩ := stepRefresher_eq hstep
    rfl
  fill _ _ _ _ := rfl
  alarms _ _ := rfl
  cancel _ := rfl

/-- Asking, letting everything else go on, and asking again takes no time. -/
theorem Steady.round (h : Steady later) {question : Ask} {seen seen' : Option Nat}
    {after last : Session} (hpoll : (session.poll seen question).session = after)
    (hagain : (after.settle.poll seen' question).session = last) :
    later session last ∧ last.now = session.now := by
  have hround : ∀ {relation : Session → Session → Prop}, Steady relation → relation session last := by
    intro relation hsteady
    rw [← hagain, ← hpoll]
    exact hsteady.trans (hsteady.trans (hsteady.poll _ _ _) (hsteady.settle _)) (hsteady.poll _ _ _)
  exact ⟨hround h, hround steady_now⟩

/-- Waiting for an answer takes no longer than it may. The induction follows the moments at which
something happens. -/
theorem Steady.waitFor (h : Steady later)
    (hpass : ∀ (session : Session) (moment : Time), session.now ≤ moment →
      later session (session.moveTo moment))
    {limit now : Time} (hnow : session.now = now) (hlimit : now ≤ limit) (seen : Option Nat)
    (question : Ask) :
    later session (session.waitFor limit now seen question).2 ∧
      (session.waitFor limit now seen question).2.now ≤ limit := by
  fun_induction Session.waitFor limit now session seen question with
  | case1 now session seen answer after hpoll | case2 now session seen after hpoll =>
      have hlater := h.poll session seen question
      have hstill := now_poll session seen question
      rw [hpoll] at hlater hstill
      exact ⟨hlater, Nat.le_trans (Nat.le_of_eq (hstill.trans hnow)) hlimit⟩
  | case3 now session seen seen' after hpoll settled answer last hagain
  | case4 now session seen seen' after hpoll settled last hagain =>
      obtain ⟨hlater, hstill⟩ :=
        h.round (congrArg Polled.session hpoll) (congrArg Polled.session hagain)
      exact ⟨hlater, Nat.le_trans (Nat.le_of_eq (hstill.trans hnow)) hlimit⟩
  | case5 now session seen seen' after hpoll settled seen'' last hagain
  | case7 now session seen seen' after hpoll settled seen'' last hagain =>
      obtain ⟨hlater, hstill⟩ :=
        h.round (congrArg Polled.session hpoll) (congrArg Polled.session hagain)
      have hpassed := Nat.le_trans (Nat.le_of_eq (hstill.trans hnow)) hlimit
      exact ⟨h.trans hlater (hpass last limit hpassed), Nat.le_refl limit⟩
  | case6 now session seen seen' after hpoll settled seen'' last hagain moment _ hmoment ih =>
      obtain ⟨hlater, hstill⟩ :=
        h.round (congrArg Polled.session hpoll) (congrArg Polled.session hagain)
      have hpassed := Nat.le_trans (Nat.le_of_eq (hstill.trans hnow)) (Nat.le_of_lt hmoment.1)
      obtain ⟨hrest, hend⟩ := ih rfl hmoment.2
      exact ⟨h.trans (h.trans hlater (hpass last moment hpassed)) hrest, hend⟩

/-- The induction is on the flow. -/
theorem Steady.runUntil {α : Type} (h : Steady later)
    (hpass : ∀ (session : Session) (moment : Time), session.now ≤ moment →
      later session (session.moveTo moment))
    {limit : Time} (flow : Flow α) (hlimit : session.now ≤ limit) :
    later session (session.runUntil limit flow).2 := by
  induction flow generalizing session with
  | done value => exact h.refl session
  | ask question next ih =>
      have hwait := h.waitFor hpass rfl hlimit none question
      rw [Session.runUntil]
      rcases hwaited : session.waitFor limit session.now none question with ⟨_ | answer, after⟩
      · rw [hwaited] at hwait
        exact hwait.1
      · rw [hwaited] at hwait
        exact h.trans hwait.1 (ih answer hwait.2)

/-! ### Cancellation -/

/-- How a session may be found later: the clock has not gone back, and what was cancelled still is. -/
structure Later (session next : Session) : Prop where
  now_le : session.now ≤ next.now
  cancelled_of : ∀ scope, session.scopeCancelled scope = true → next.scopeCancelled scope = true

theorem later_refl (session : Session) : session.Later session :=
  ⟨Nat.le_refl _, fun _ => id⟩

theorem Later.trans {middle : Session} (hfront : session.Later middle) (hback : middle.Later next) :
    session.Later next :=
  ⟨Nat.le_trans hfront.now_le hback.now_le,
    fun scope hscope => hback.cancelled_of scope (hfront.cancelled_of scope hscope)⟩

theorem later_of_beside (h : session.Beside next) : session.Later next :=
  ⟨Nat.le_of_eq h.now_eq.symm, fun scope hscope => (h.scopeCancelled_eq scope).trans hscope⟩

theorem later_cancel (session : Session) : session.Later session.cancel := by
  refine ⟨Nat.le_refl _, fun scope hscope => ?_⟩
  cases scope with
  | unlimited => exact hscope
  | session => rfl
  | recordSet number =>
      rw [scopeCancelled, Bool.or_eq_true] at hscope ⊢
      exact hscope.imp_left fun hparent => Bool.and_eq_true_iff.mpr
        ⟨(Bool.and_eq_true_iff.mp hparent).1, rfl⟩

/-- Nothing that happens in a session undoes a cancellation. -/
theorem steady_later : Steady Later where
  refl := later_refl
  trans := Later.trans
  poll session seen question :=
    ⟨Nat.le_of_eq (now_poll session seen question).symm,
      fun scope hscope => (scopeCancelled_poll session seen question scope).trans hscope⟩
  refresh hstep := by
    obtain ⟨refresher, logins, made, rfl⟩ := stepRefresher_eq hstep
    exact ⟨Nat.le_refl _, fun scope hscope => by cases scope <;> exact hscope⟩
  fill session number _ hchange := later_of_beside (beside_updateSet session number hchange)
  alarms session alarms := ⟨Nat.le_refl _, fun scope hscope => by cases scope <;> exact hscope⟩
  cancel := later_cancel

end RecordGateway.Session
