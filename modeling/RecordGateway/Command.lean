import RecordGateway.Policy
import RecordGateway.Row.Outcome

/-!
Commands on a single record, and what the row that answers one means to its caller. Whether a
command writes decides whether a timeout leaves its outcome in doubt.
-/

namespace RecordGateway

inductive Method where
  | read
  | getHeader
  | exists
  | write
  | delete
  | touch
  | operate
  | execute
  | batchOperate
  | scan
  | query
  | backgroundExecute
  | backgroundTaskStatus
deriving DecidableEq, Repr

def Method.name : Method → String
  | .read => "read"
  | .getHeader => "get_header"
  | .exists => "exists"
  | .write => "write"
  | .delete => "delete"
  | .touch => "touch"
  | .operate => "operate"
  | .execute => "execute"
  | .batchOperate => "batch_operate"
  | .scan => "scan"
  | .query => "query"
  | .backgroundExecute => "background_execute"
  | .backgroundTaskStatus => "background_task_status"

/-- What is done to a record. -/
inductive Action where
  | get (bins : Option (List String))
  | getHeader
  | exists
  /-- Writes, adds to, appends to or prepends to bins, as `kind` says. -/
  | write (kind : Operation.Kind) (bins : List (String × Value))
  | delete
  | touch
  | operate (operations : List Operation)
  | execute (package function : String) (arguments : List Value)
deriving Repr

/-- An action on one record under a policy. -/
structure Command where
  key : Key
  policy : Policy
  action : Action
deriving Repr

/-- What a command gives its caller. -/
inductive Command.Output where
  | record (record : Option Record)
  | flag (flag : Bool)
  | done
  | udfResult (value : Option Value)
deriving Repr

namespace Action

/-- The method that carries an action out. -/
def method : Action → Method
  | .get _ => .read
  | .getHeader => .getHeader
  | .exists => .exists
  | .write .. => .write
  | .delete => .delete
  | .touch => .touch
  | .operate _ => .operate
  | .execute .. => .execute

/-- Whether an action can change the record. -/
def isWrite : Action → Bool
  | .get _ | .getHeader | .exists => false
  | .operate operations => Operation.anyWrite operations
  | .write .. | .delete | .touch | .execute .. => true

end Action

namespace Command

/-- The method that carries a command out. -/
def method (command : Command) : Method :=
  command.action.method

/-- Whether a command can change the record. -/
def isWrite (command : Command) : Bool :=
  command.action.isWrite

/-- A writer wants to know of a missing record; a reader takes it for an answer. -/
def strictness (command : Command) : Row.Strictness where
  notFoundFails := command.isWrite
  filteredOutFails := command.policy.failOnFilteredOut

/-- Whether there is a record, from the result code alone. -/
def presence (command : Command) (header : Row.Header) : Except Fault Bool :=
  let code := header.resultCode
  if code = .ok then .ok true
  else if code = .keyNotFound then .ok false
  else if code = .filteredOut ∧ !command.policy.failOnFilteredOut then .ok true
  else .error (.ofCode code)

/-- What the row that answers a command means. -/
def interpret (command : Command) (header : Row.Header) (record : Record) :
    Except Fault Output :=
  match command.action with
  | .exists | .delete => .flag <$> command.presence header
  | .write .. | .touch => do
    discard (Row.resolve header record command.strictness)
    return .done
  | .execute .. => do
    let record ← Row.resolve header record command.strictness
    return .udfResult (record >>= fun record => record.get? Udf.successBin)
  | .get _ | .getHeader | .operate _ =>
    .record <$> Row.resolve header record command.strictness

end Command
end RecordGateway
