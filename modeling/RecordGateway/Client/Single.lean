import RecordGateway.Client

/-!
Commands on a single record. A command is tried again, under the same id, after a failure that may
pass, as often as its policy allows. Once an attempt to write has failed in doubt, the command stays
in doubt.
-/

namespace RecordGateway.Client

/-- What a response means for a command. -/
def readReply (client : Client) (command : Command) (response : Envelope.Response) :
    Except Fault Command.Output := do
  let reader := FrameReader.ofResponse response { isWrite := command.isWrite } client.reporter
  let (body, _) := (FrameReader.readGroup.run.run reader).undisturbed
  match ← body with
  | none => throw (.parse "empty response payload")
  | some body =>
    let (header, record) ← Row.readAnonymous.outcome body
    command.interpret header record

def attempt (client : Client) (command : Command) (payload : Bytes) (id : UInt32)
    (iteration : Nat) (total : Option Time) : Making Command.Output := do
  let now ← ask .clock
  let limits : Limits := {
    deadline := command.policy.attemptDeadline now total
    scope := client.scope
    isWrite := command.isWrite }
  let request := envelope id iteration.toUInt32 payload command.policy command.isWrite
  let response ← client.unary command.method request limits
  client.readReply command response

/-- Whether an attempt that failed may be followed by another, if the policy allows one. -/
def mayRetry (fault : Fault) (now : Time) (total : Option Time) : Bool :=
  match fault.kind with
  | .timeout => total.all (now < ·)
  | .serverUnavailable => true
  | _ => false

/-- Attempts until one succeeds, or fails and no other follows. -/
def attempts (client : Client) (command : Command) (payload : Bytes) (id : UInt32)
    (total : Option Time) (retries iteration : Nat) (doubt : Bool) :
    Flow (Except Fault Command.Output) := do
  match ← (client.attempt command payload id iteration total).run with
  | .ok output => return .ok output
  | .error fault =>
    let doubt := doubt || (command.isWrite && fault.inDoubt)
    let failed :=
      { fault with inDoubt := fault.inDoubt || doubt, iteration := some iteration }
    match retries with
    | 0 => return .error failed
    | retries + 1 =>
      let now ← Flow.clock
      if mayRetry fault now total then
        if command.policy.sleepBetweenRetries ≠ 0 then
          Flow.sleep command.policy.sleepBetweenRetries
        attempts client command payload id total retries (iteration + 1) doubt
      else
        return .error failed

def execute (client : Client) (command : Command) : Making Command.Output := do
  let payload ← client.framer.command command
  let total := command.policy.deadline (← ask .clock)
  let id ← ask .drawId
  ExceptT.mk (client.attempts command payload id total command.policy.maxRetries 1 false)

/-- Carries operations out on a record, of which there must be some. -/
def operate (client : Client) (key : Key) (policy : Policy) (operations : List Operation) :
    Making Command.Output := do
  if operations.isEmpty then
    throw (.client "operate requires at least one operation")
  client.execute { key, policy, action := .operate operations }

end RecordGateway.Client
