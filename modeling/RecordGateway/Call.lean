import RecordGateway.Command
import RecordGateway.Envelope.Response
import RecordGateway.Partition
import RecordGateway.Status

/-!
Calls and what comes back: the limits under which a call waits, the request as it is handed to the
transport, and answers that take their time.
-/

namespace RecordGateway

inductive Scope where
  /-- Nobody's. -/
  | unlimited
  /-- That of the session in which the call is made. -/
  | session
  /-- That of a record set, which the session's cancellation includes. -/
  | recordSet (number : Nat)
deriving DecidableEq, Repr

/-- How long a call waits, and whether it writes. -/
structure Limits where
  deadline : Option Time := none
  scope : Scope := .unlimited
  isWrite : Bool := false
deriving DecidableEq, Repr

inductive Waited where
  | arrived
  | timedOut
  | cancelled
deriving DecidableEq, Repr

/-- A request as it is handed to the transport. -/
structure Call where
  method : Method
  request : Envelope.Request
  version : String
  authorization : Option String
  timeout : Option Time
deriving DecidableEq, Repr

/-- The units in which a header states a span of time, the finest first: a letter, and how many
units make a millisecond, as a fraction. -/
def timeoutUnits : List (String × Nat × Nat) :=
  [("n", 1000000, 1), ("u", 1000, 1), ("m", 1, 1), ("S", 1, 1000), ("M", 1, 60000),
    ("H", 1, 3600000)]

/-- A span of time as a header states it: in whole units, in the finest unit in which eight digits
are enough. -/
def timeoutText (span : Time) : String :=
  let texts := timeoutUnits.map fun (unit, times, per) => (span * times / per, unit)
  match texts.find? fun (count, _) => count < 100000000 with
  | some (count, unit) => toString count ++ unit
  | none => "99999999H"

/-- Something that comes after a delay; without one it never comes. -/
structure Delayed (α : Type) where
  delay : Option Time
  value : α
deriving DecidableEq, Repr

/-- The frames of an answer that are still to come. After them the stream closes or stalls. The
delay of the first begins when somebody first waits for it, and `due` is when it then arrives. -/
structure FrameStream where
  arrivals : List (Delayed (Except Status Envelope.Response)) := []
  stalls : Bool := false
  due : Option (Option Time) := none
deriving Repr

/-- What a record set hands to its reader. -/
inductive RecordSet.Item where
  | row (key : Key) (record : Record)
  /-- All is read; the filter goes on from here. -/
  | finished (resume : Partition.Filter)
  | failed (fault : Fault)
deriving Repr

/-- What somebody who asks for an access token is told. -/
inductive Credential.Answer where
  | token (text : String)
  /-- There is no token, for a reason that the last login gave. -/
  | refused (reason : String)
  /-- Nobody asks for tokens any more. -/
  | stopped
  | timedOut
  | cancelled
deriving DecidableEq, Repr

end RecordGateway
