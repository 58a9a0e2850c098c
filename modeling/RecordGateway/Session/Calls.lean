import RecordGateway.Client.Batch
import RecordGateway.Client.Single
import RecordGateway.Client.Task
import RecordGateway.Session.Run

/-! What a caller can do in a session besides single commands and batches: begin record sets and
read them, wait for tasks, watch over the access token, and cancel. -/

namespace RecordGateway.Session

/-- Adds a record set that is to be filled. -/
def addSet (session : Session) (stream : Client.Stream) : Session :=
  let set : Set := {
    queue := { capacity := stream.capacity }
    activity := some (stream.producer.run stream.tracker) }
  { session with sets := session.sets.push set }

/-- Begins a record set: its number, or why there is none. -/
def beginSet (session : Session) (begin_ : Nat → Client.Making Client.Stream) :
    Option (Except Fault Nat) × Session :=
  let number := session.sets.size
  match session.run (begin_ number).run with
  | (some (.ok stream), session) => (some (.ok number), session.addSet stream)
  | (some (.error fault), session) => (some (.error fault), session)
  | (none, session) => (none, session)

def query (session : Session) (policy : QueryPolicy) (statement : Statement)
    (filter : Partition.Filter) : Option (Except Fault Nat) × Session :=
  session.beginSet fun number => session.client.query number policy statement filter

def scan (session : Session) (policy : ScanPolicy) (ns set : String) (bins : List String)
    (filter : Partition.Filter) : Option (Except Fault Nat) × Session :=
  session.beginSet fun number => session.client.scan number policy ns set bins filter

/-- A record set that has not been dropped. -/
def set? (session : Session) (number : Nat) : Option Set :=
  session.sets[number]?.filter fun set => !set.isDropped

/-- The next row of a set, or its fault; `some none` at the end. Waits no longer than `limit`. -/
def nextRow (session : Session) (limit : Time) (number : Nat) :
    Option (Option (Except Fault (Key × Record))) × Session :=
  match session.set? number with
  | none => (some none, session)
  | some set =>
    if set.reader.finished then (some none, session)
    else
      match session.runUntil limit (Flow.query (.receive number)) with
      | (none, session) => (none, session)
      | (some item, session) =>
        let (reader, row) := set.reader.accept item
        (some row, session.updateSet number fun set => { set with reader })

/-- Ends a set before it is read; what is in its queue is lost. -/
def closeSet (session : Session) (number : Nat) : Session :=
  session.updateSet number fun set =>
    { set with
      isCancelled := true
      queue := { set.queue with isRead := false }
      reader := { set.reader with finished := true } }

def dropSet (session : Session) (number : Nat) : Session :=
  session.updateSet number fun set =>
    { set with
      isCancelled := true
      isDropped := true
      queue := { set.queue with isRead := false } }

def cancel (session : Session) : Session :=
  { session with isCancelled := true }

/-- Cancels the session after a while. The record sets that can go on by now do so before the alarm
begins to wait. -/
def cancelAfter (session : Session) (span : Time) : Session :=
  let alarm : Alarm := { due := session.now + span, ahead := session.setsWhere session.canGoOn }
  { session with alarms := session.alarms ++ [alarm] }

/-- The access token that is held, expired or not. -/
def currentToken (session : Session) : Option String := do
  match (← session.refresher).holding with
  | .ready token => some token.text
  | _ => none

/-- Waits for an access token, with a deadline of its own. -/
def awaitToken (span : Option Time) : Flow (Except Fault String) := do
  let now ← Flow.clock
  match ← Flow.query (.credential { deadline := span.map (now + ·) }) with
  | .token text => return .ok text
  | .refused reason => return .error (.notAuthenticated reason)
  | .stopped => return .error (.notAuthenticated "credential refresher stopped")
  | .timedOut => return .error (.notAuthenticated "timed out waiting for access token")
  | .cancelled => return .error .callCancelled

/-- Waits for the end of a task. Each question takes one of the answers in the script, and the first
for which there is none fails. -/
def awaitTask (session : Session) (task : Task) (interval : Time) (timeout : Option Time) :
    Flow (Except Fault Unit) :=
  (session.client.awaitTask task interval timeout (session.script.responses.length + 1)).run

end RecordGateway.Session
