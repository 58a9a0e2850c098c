import RecordGateway.Text.Quoted

/-! The status with which the transport reports that a call failed. -/

namespace RecordGateway

/-- The codes of a transport status. -/
inductive Status.Code where
  | ok
  | cancelled
  | unknown
  | invalidArgument
  | deadlineExceeded
  | notFound
  | alreadyExists
  | permissionDenied
  | resourceExhausted
  | failedPrecondition
  | aborted
  | outOfRange
  | unimplemented
  | internal
  | unavailable
  | dataLoss
  | unauthenticated
deriving DecidableEq, Repr

/-- A failed call as the transport reports it, with the texts of its causes, the nearest first. -/
structure Status where
  code : Status.Code
  message : String
  causes : List String := []
deriving DecidableEq, Repr

namespace Status

/-- All codes in the order of their numbers. -/
def Code.all : List Code :=
  [.ok, .cancelled, .unknown, .invalidArgument, .deadlineExceeded, .notFound, .alreadyExists,
    .permissionDenied, .resourceExhausted, .failedPrecondition, .aborted, .outOfRange,
    .unimplemented, .internal, .unavailable, .dataLoss, .unauthenticated]

/-- The code with a given number; numbers without a code are read as `unknown`. -/
def Code.ofNumber (n : Int) : Code :=
  if n < 0 then .unknown else (all[n.toNat]?).getD .unknown

/-- The name of a code as it appears in texts. -/
def Code.name : Code → String
  | .ok => "Ok"
  | .cancelled => "Cancelled"
  | .unknown => "Unknown"
  | .invalidArgument => "InvalidArgument"
  | .deadlineExceeded => "DeadlineExceeded"
  | .notFound => "NotFound"
  | .alreadyExists => "AlreadyExists"
  | .permissionDenied => "PermissionDenied"
  | .resourceExhausted => "ResourceExhausted"
  | .failedPrecondition => "FailedPrecondition"
  | .aborted => "Aborted"
  | .outOfRange => "OutOfRange"
  | .unimplemented => "Unimplemented"
  | .internal => "Internal"
  | .unavailable => "Unavailable"
  | .dataLoss => "DataLoss"
  | .unauthenticated => "Unauthenticated"

/-- The status in words, with its details and metadata, of which there are none. -/
def display (status : Status) : String :=
  "status: " ++ status.code.name ++ ", message: " ++ Quoted.text status.message
    ++ ", details: [], metadata: MetadataMap \x7b headers: \x7b\x7d \x7d"

end Status
end RecordGateway
