import RecordGateway.Client
import RecordGateway.Statement

/-! Background tasks: starting one, asking how far it is, and waiting for its end. -/

namespace RecordGateway

open Envelope (TaskStatus)

/-- A background task that was started. -/
structure Task where
  id : UInt64
  isScan : Bool
deriving DecidableEq, Repr

def Task.inspect (task : Task) : String :=
  "ExecuteTask \x7b task_id: " ++ toString task.id ++ ", is_scan: "
    ++ (if task.isScan then "true" else "false") ++ ", .. \x7d"

namespace Client

/-- Refuses a response with a status other than success. -/
def acceptResponse (response : Envelope.Response) (isWrite : Bool) : Except Fault Unit :=
  if response.status = 0 then .ok ()
  else .error (.ofResponse response.status.toInt response.inDoubt isWrite)

/-- Starts a statement as a background task, under a number of its own if it has none. -/
def startTask (client : Client) (policy : Policy) (statement : Statement) : Making Task := do
  if statement.function.isNone ∧ statement.operations.isEmpty then
    throw (.client "background execution needs a UDF or operations")
  let taskId ← if statement.taskId = 0 then ask .drawTaskId else pure statement.taskId
  let statement := { statement with taskId }
  let message ← statement.message client.framer
  let id ← ask .drawId
  let request : Envelope.Request := {
    id
    iteration := 1
    backgroundTask := some { policy := some policy.copies, statement := some message } }
  let limits : Limits :=
    { deadline := policy.deadline (← ask .clock), scope := client.scope, isWrite := true }
  let response ← client.unary .backgroundExecute request limits
  acceptResponse response true
  return { id := taskId, isScan := statement.isScan }

/-- Asks how far a task is. -/
def taskStatus (client : Client) (task : Task) : Making TaskStatus := do
  let policy : Policy := {}
  let id ← ask .drawId
  let request : Envelope.Request := {
    id
    iteration := 1
    taskQuestion := some { taskId := task.id, isScan := task.isScan } }
  let limits : Limits := { deadline := policy.deadline (← ask .clock), scope := client.scope }
  let response ← client.unary .backgroundTaskStatus request limits
  acceptResponse response false
  return .ofResponse response

/-- Asks again and again, after an interval each time, until the task is complete; gives up when the
next question would come after the deadline. -/
def pollTask (client : Client) (task : Task) (interval : Time) (deadline : Option Time) :
    Nat → Making Unit
  | 0 => return
  | questions + 1 => do
    match ← client.taskStatus task with
    | .complete => return
    | .notFound => throw (.client s!"background task {task.id} not found")
    | .inProgress =>
      let now ← ask .clock
      if deadline.any (· < now + interval) then
        throw { Fault.ofKind .timeout with
          message := some s!"background task {task.id} still running" }
      ExceptT.lift (Flow.sleep interval)
      client.pollTask task interval deadline questions

/-- Waits for the end of a task with at most the given number of questions. -/
def awaitTask (client : Client) (task : Task) (interval : Time) (timeout : Option Time)
    (questions : Nat) : Making Unit := do
  let now ← ask .clock
  client.pollTask task interval (timeout.map (now + ·)) questions

end Client
end RecordGateway
