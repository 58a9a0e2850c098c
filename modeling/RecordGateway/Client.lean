import RecordGateway.Config
import RecordGateway.Flow
import RecordGateway.FrameReader
import RecordGateway.Framer

/-!
What a client does to make a call: it states who it is and, with credentials, proves it by an access
token; it hands the request to the transport; and it waits for the answer no longer than the limits
of the call allow. A rejected token makes the client ask for a new one.
-/

namespace RecordGateway

structure Client where
  framer : Framer
  config : Config
  /-- Whose cancellation ends the client's calls. -/
  scope : Scope := .unlimited

namespace Client

/-- An activity of a client that may fail. -/
abbrev Making := ExceptT Fault Flow

/-- Asks a question while making a call. -/
def ask (question : Ask) : Making question.Answer :=
  ExceptT.lift (Flow.query question)

/-- Whether a byte may stand in a header: all but the control characters, of which a tab may. -/
def isHeaderByte (byte : UInt8) : Bool :=
  byte == 9 || (32 ≤ byte && byte != 127)

/-- Whether a text may stand in a header. -/
def isHeaderText (text : String) : Bool :=
  (utf8 text).all isHeaderByte

/-- How the client writes the messages of its faults. -/
def reporter (client : Client) : Fault.Reporter :=
  client.config.reporter

/-- The access token that proves who the client is; none for a client without credentials. -/
def authorization (client : Client) (limits : Limits) : Making (Option String) := do
  if client.config.credentials.isNone then
    return none
  match ← ask (.credential limits) with
  | .cancelled => throw .callCancelled
  | .timedOut => throw (.notAuthenticated "timed out waiting for access token")
  | .stopped => throw (.notAuthenticated "credential refresher stopped")
  | .refused reason => throw (.notAuthenticated reason)
  | .token text =>
    let header := "Bearer " ++ text
    if !isHeaderText header then
      throw (.client "access token is not a valid header" ["failed to parse metadata value"])
    return some header

/-- The request as it is handed over, with the time that is left for it. -/
def prepare (client : Client) (method : Method) (request : Envelope.Request) (limits : Limits) :
    Making Call := do
  let now ← ask .clock
  let timeout := limits.deadline.map (· - now)
  let version := client.config.clientVersion
  if !isHeaderText version then
    throw (.client "client version is not a valid header" ["failed to parse metadata value"])
  let authorization ← client.authorization limits
  return { method, request, version, authorization, timeout }

/-- The fault behind a status that the transport reports for a call as a whole. -/
def rejected (client : Client) (status : Status) (limits : Limits) : Making Fault := do
  let fault := client.reporter.ofStatus status limits.isWrite
  if fault.kind = .notAuthenticated ∧ client.config.credentials.isSome then
    ask .renewCredential
  return fault

/-- Hands a request over, unless the call is cancelled, and waits for the answer. -/
def exchange {α : Type} (client : Client) (limits : Limits)
    (hand : Flow (Delayed (Except Status α))) : Making α := do
  if ← ask (.isCancelled limits.scope) then
    throw .callCancelled
  let answer ← ExceptT.lift hand
  let now ← ask .clock
  match ← ask (.wait (answer.delay.map (now + ·)) limits) with
  | .cancelled => throw .callCancelled
  | .timedOut => throw (.deadlineExceeded limits.isWrite)
  | .arrived =>
    match answer.value with
    | .ok value => return value
    | .error status => throw (← client.rejected status limits)

/-- A call with a single response. -/
def unary (client : Client) (method : Method) (request : Envelope.Request) (limits : Limits) :
    Making Envelope.Response := do
  let call ← client.prepare method request limits
  client.exchange limits (Flow.query (.send call))

/-- A call with a stream of responses. The limits hold for its frames too. -/
def stream (client : Client) (method : Method) (request : Envelope.Request) (limits : Limits) :
    Making FrameStream := do
  let call ← client.prepare method request limits
  client.exchange limits (Flow.query (.openStream call))

/-- A request in the database's own format, with the policy of a read or of a write. -/
def envelope (id iteration : UInt32) (payload : Bytes) (policy : Policy) (isWrite : Bool) :
    Envelope.Request where
  id := id
  iteration := iteration
  payload := payload
  readPolicy := if isWrite then none else some policy.copies
  writePolicy := if isWrite then some policy.copies else none

section Envelope

variable (id iteration : UInt32) (payload : Bytes) (policy : Policy) (isWrite : Bool)

end Envelope

/-- The client with a configuration that it can work with. -/
def ofConfig (framer : Framer) (scope : Scope) (config : Config) : Except Fault Client := do
  return { framer, scope, config := ← config.check }

end Client
end RecordGateway
