import RecordGateway.Session

/-!
How time passes in a session. The call being made goes on as far as it can; then the other
activities go on as far as they can; and when all of them wait, the clock moves to the next moment
at which something is due. A call that waits too long is given up.
-/

namespace RecordGateway.Session

/-- Makes a login, if the refresher is about to. -/
def makeLogin (session : Session) (refresher : Credential.Refresher) : Session :=
  let (login, session) :=
    { session with logins := session.now :: session.logins }.takeLogin
  let phase := match login with
    | none => .stopped
    | some login => .loggingIn (login.delay.map (session.now + ·)) login.value
  { session with refresher := some { refresher with phase } }

/-- One step of the refresher, if it can make one now. -/
def stepRefresher? (session : Session) : Option Session := do
  let refresher ← session.refresher
  match refresher.phase with
  | .starting => return session.makeLogin refresher
  | _ =>
    let refresher ← refresher.step? session.refresherSettings session.now
    return { session with refresher := some refresher }

/-- The refresher goes on as far as it can, for at most `fuel` steps. -/
def runRefresher : Nat → Session → Session × Bool
  | 0, session => (session, false)
  | fuel + 1, session =>
    match session.stepRefresher? with
    | none => (session, false)
    | some session => ((runRefresher fuel session).1, true)

/-- The filling of a set has come to its end. -/
def endActivity (session : Session) (number : Nat) : Session :=
  session.updateSet number fun set =>
    { set with activity := none, seen := none, queue := { set.queue with isFilled := false } }

/-- The filling of a set goes on as far as it can. -/
def runActivity (number : Nat) : Flow Unit → Option Nat → Session → Session
  | .done (), _, session => session.endActivity number
  | .ask question next, seen, session =>
    match session.poll seen question with
    | .answered answer session => runActivity number (next answer) none session
    | .broken session => session.endActivity number
    | .waiting seen session =>
      session.updateSet number fun set =>
        { set with activity := some (.ask question next), seen }

/-- Whether the filling of a set can go on. -/
def canGoOn (session : Session) (set : Set) : Bool :=
  match set.activity with
  | none => false
  | some (.done ()) => true
  | some (.ask question _) =>
    match session.poll set.seen question with
    | .waiting _ _ => false
    | _ => true

/-- The filling of each of the given sets goes on; the flag tells whether any could. -/
def runActivities : List Nat → Session → Session × Bool
  | [], session => (session, false)
  | number :: rest, session =>
    match session.sets[number]? with
    | none => runActivities rest session
    | some set =>
      let could := session.canGoOn set
      let session := match set.activity with
        | none => session
        | some activity => runActivity number activity set.seen session
      let (session, others) := runActivities rest session
      (session, could || others)

/-- The numbers of the record sets that are chosen. -/
def setsWhere (session : Session) (chosen : Set → Bool) : List Nat :=
  (List.range session.sets.size).filter fun number => (session.sets[number]?).any chosen

/-- Whether the filling of a set may go on at a moment merely because it has come. -/
def Set.wakesAt (set : Set) (moment : Time) : Bool :=
  match set.activity with
  | some (.ask question _) => moment ∈ wakeTimes question
  | _ => false

/-- An alarm goes on. If its moment is still to come, it begins to wait for it, behind the record
sets that wait for the same moment by now. -/
def runAlarm (session : Session) (alarm : Alarm) : Session :=
  let (session, _) := session.runActivities alarm.ahead
  if alarm.due ≤ session.now then { session with isCancelled := true }
  else
    let ahead := session.setsWhere (·.wakesAt alarm.due)
    { session with alarms := session.alarms ++ [{ alarm with isWaiting := true, ahead }] }

/-- The alarms go on; the flag tells whether any could. -/
def runAlarms (session : Session) : Session × Bool :=
  let (waiting, ready) := session.alarms.partition fun alarm =>
    alarm.isWaiting && session.now < alarm.due
  (ready.foldl runAlarm { session with alarms := waiting }, !ready.isEmpty)

/-- How many steps can follow from one another at one moment: each takes an answer of the gateway or
wakes one of the activities. -/
def stepBound (session : Session) : Nat :=
  4 * (session.script.responses.length + session.script.streams.length
    + session.script.logins.length + session.sets.size + session.alarms.length) + 16

/-- All other activities go on, until none of them can. -/
def settleFrom : Nat → Session → Session
  | 0, session => session
  | fuel + 1, session =>
    let (session, renewed) := session.runRefresher session.stepBound
    let (session, rung) := session.runAlarms
    let (session, others) := session.runActivities (List.range session.sets.size)
    if renewed || rung || others then settleFrom fuel session else session

/-- All other activities go on, until none of them can. -/
def settle (session : Session) : Session :=
  settleFrom session.stepBound session

/-- The moments at which something happens of itself. -/
def moments (session : Session) : List Time :=
  session.alarms.map (·.due) ++ (session.refresher >>= (·.due?)).toList
    ++ session.sets.toList.flatMap fun set =>
      match set.activity with
      | some (.ask question _) => wakeTimes question
      | _ => []

/-- The next moment at which something happens while a question waits. -/
def nextMoment? (session : Session) (question : Ask) : Option Time :=
  ((wakeTimes question ++ session.moments).filter (session.now < ·)).min?

def moveTo (session : Session) (moment : Time) : Session :=
  { session with now := moment }

/-- Lets time pass from `now` until a question is answered, but not beyond `limit`. -/
def waitFor (limit now : Time) (session : Session) (seen : Option Nat) (question : Ask) :
    Option question.Answer × Session :=
  match session.poll seen question with
  | .answered answer session => (some answer, session)
  | .broken session => (none, session)
  | .waiting seen session =>
    let session := session.settle
    match session.poll seen question with
    | .answered answer session => (some answer, session)
    | .broken session => (none, session)
    | .waiting seen session =>
      match session.nextMoment? question with
      | none => (none, session.moveTo limit)
      | some moment =>
        if _h : now < moment ∧ moment ≤ limit then
          waitFor limit moment (session.moveTo moment) seen question
        else
          (none, session.moveTo limit)
termination_by limit - now
decreasing_by exact Nat.sub_lt_sub_left (Nat.lt_of_lt_of_le _h.1 _h.2) _h.1

/-- Makes a call; there is no result if it still waits at `limit`. -/
def runUntil {α : Type} (limit : Time) : Flow α → Session → Option α × Session
  | .done value, session => (some value, session)
  | .ask question next, session =>
    match session.waitFor limit session.now none question with
    | (some answer, session) => runUntil limit (next answer) session
    | (none, session) => (none, session)

/-- How long a call may wait: ten minutes. -/
def patience : Time := 600000

/-- Makes a call; there is no result if it has to be given up. -/
def run {α : Type} (session : Session) (flow : Flow α) : Option α × Session :=
  runUntil (session.now + patience) flow session

end RecordGateway.Session
