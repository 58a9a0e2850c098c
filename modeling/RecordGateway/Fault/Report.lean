import RecordGateway.Fault
import RecordGateway.Status
import RecordGateway.Text.Excerpt

/-!
How failures of the transport and of the gateway become faults. A `Reporter` bounds the length of
the messages that it writes. A timeout of a write is in doubt, since the write may have been applied
before the time was up; a read never is.
-/

namespace RecordGateway.Fault

/-- How messages are written: their greatest length in bytes and what stands between a message and
its cause. -/
structure Reporter where
  maxLength : Nat := 10240
  separator : String := " -> "
deriving DecidableEq, Repr

namespace Reporter

/-- A text cut to the greatest length, at the end of a character. -/
def cut (r : Reporter) (text : String) : String :=
  Excerpt.cut r.maxLength text

/-- A text followed by its causes, as far as the greatest length allows. -/
def join (r : Reporter) (head : String) (causes : List String) : String :=
  r.cut (Excerpt.joinUpTo r.maxLength r.separator head causes)

/-- The text of a fault and its causes. -/
def explain (r : Reporter) (fault : Fault) : String :=
  r.join fault.display fault.causes

/-- The fault behind a transport status. -/
def ofStatus (r : Reporter) (status : Status) (isWrite : Bool) : Fault :=
  let fault := match status.code with
    | .deadlineExceeded => { ofKind .timeout with inDoubt := isWrite }
    | .permissionDenied => ofKind .forbidden
    | .resourceExhausted => ofKind .quotaExceeded
    | .unauthenticated => ofKind .notAuthenticated
    | .unavailable => ofKind .serverUnavailable
    | _ => { ofKind .client with code := .transportError }
  { fault with
    message := some (r.join (status.code.name ++ ": " ++ status.message) status.causes)
    causes := status.display :: status.causes }

end Reporter

/-- The fault behind a status other than success inside a response of the gateway. -/
def ofResponse (status : ResultCode) (inDoubt isWrite : Bool) : Fault :=
  if status = .gatewayQueueFull then
    { ofKind .server with code := status, message := some "server queue full", inDoubt }
  else if status = .timeout then
    { ofKind .timeout with message := some "server timeout", inDoubt := inDoubt || isWrite }
  else
    { ofCode status with inDoubt }

/-- The client's own deadline passed. -/
def deadlineExceeded (isWrite : Bool) : Fault :=
  { ofKind .timeout with message := some "client deadline exceeded", inDoubt := isWrite }

/-- The caller gave the call up. -/
def callCancelled : Fault :=
  { ofKind .cancelled with message := some "call cancelled" }

end RecordGateway.Fault
