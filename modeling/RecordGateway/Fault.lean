import RecordGateway.ResultCode

/-!
Faults: why a call did not succeed. A fault has a kind, a result code and perhaps a message, and it
says whether a write may have been applied nevertheless (`inDoubt`). Its causes are kept as the
texts they show, the nearest first.
-/

namespace RecordGateway

/-- The kinds of fault that a caller can tell apart. -/
inductive Fault.Kind where
  | timeout
  | client
  | server
  | forbidden
  | quotaExceeded
  | notAuthenticated
  | serverUnavailable
  | serialize
  | parse
  | cancelled
  /-- The database itself reported a result code other than success. -/
  | result
deriving DecidableEq, Repr

/-- Why a call did not succeed. -/
structure Fault where
  kind : Fault.Kind
  code : ResultCode
  message : Option String := none
  inDoubt : Bool := false
  iteration : Option Nat := none
  partition : Option Nat := none
  causes : List String := []
deriving DecidableEq, Repr

namespace Fault

/-- The name of a kind as it appears in texts. -/
def Kind.name : Kind → String
  | .timeout => "Timeout"
  | .client => "Client"
  | .server => "Server"
  | .forbidden => "Forbidden"
  | .quotaExceeded => "QuotaExceeded"
  | .notAuthenticated => "NotAuthenticated"
  | .serverUnavailable => "ServerUnavailable"
  | .serialize => "Serialize"
  | .parse => "Parse"
  | .cancelled => "Cancelled"
  | .result => "Result"

def Kind.all : List Kind :=
  [.timeout, .client, .server, .forbidden, .quotaExceeded, .notAuthenticated, .serverUnavailable,
    .serialize, .parse, .cancelled, .result]

/-- The kind with a given name. -/
def Kind.ofName? (name : String) : Option Kind :=
  all.find? (·.name = name)

/-- The result code of a fault whose kind is all that is known. -/
def Kind.defaultCode : Kind → ResultCode
  | .timeout => .timeout
  | .client => .clientError
  | .server => .serverError
  | .forbidden => .forbidden
  | .quotaExceeded => .quotaExceeded
  | .notAuthenticated => .notAuthenticated
  | .serverUnavailable => .serverNotAvailable
  | .serialize => .serializeError
  | .parse => .parseError
  | .cancelled => .clientError
  | .result => .serverError

/-- The kind of fault that a result code other than success stands for. -/
def Kind.ofCode (code : ResultCode) : Kind :=
  if code = .timeout then .timeout
  else if code = .notAuthenticated then .notAuthenticated
  else if code = .forbidden ∨ code = .roleViolation then .forbidden
  else if code = .quotaExceeded then .quotaExceeded
  else if code = .serverNotAvailable then .serverUnavailable
  else if code = .serializeError then .serialize
  else if code = .parseError then .parse
  else if code = .clientError then .client
  else .result

/-- The status with which a program ends that fails in this way. -/
def Kind.exitStatus : Kind → Nat
  | .client => 1
  | .parse => 2
  | .serialize => 3
  | .result => 4
  | .server => 5
  | .timeout => 6
  | .forbidden => 7
  | .quotaExceeded => 8
  | .notAuthenticated => 9
  | .serverUnavailable => 10
  | .cancelled => 11

/-- A fault of which only the kind is known. -/
def ofKind (kind : Kind) : Fault :=
  { kind, code := kind.defaultCode }

/-- A fault that a result code describes. -/
def ofCode (code : ResultCode) : Fault :=
  { kind := .ofCode code, code }

/-- Bytes that do not have the form they should. -/
def parse (message : String) (causes : List String := []) : Fault :=
  { ofKind .parse with message := some message, causes }

/-- A call that the client itself refuses. -/
def client (message : String) (causes : List String := []) : Fault :=
  { ofKind .client with message := some message, causes }

def notAuthenticated (message : String) : Fault :=
  { ofKind .notAuthenticated with message := some message }

/-- The fault in words, without its causes. -/
def display (fault : Fault) : String :=
  fault.kind.name ++ s!" ({fault.code}: {ResultCode.describe fault.code})"
    ++ (match fault.message with
      | some message => ": " ++ message
      | none => "")
    ++ (match fault.partition with
      | some partition => s!" (partition: {partition})"
      | none => "")
    ++ (match fault.iteration with
      | some iteration => s!" (iteration: {iteration})"
      | none => "")
    ++ (if fault.inDoubt then " (in doubt)" else "")

end Fault
end RecordGateway
