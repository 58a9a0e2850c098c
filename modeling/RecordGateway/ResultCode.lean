/-!
Result codes: what the database reports for a row, and the negative codes that the client and the
gateway add. A code is a number, since any number may arrive; the ones with a meaning have names.
-/

namespace RecordGateway

/-- The outcome of an operation as a number. -/
abbrev ResultCode := Int

namespace ResultCode

def transportError : ResultCode := -21
def noResponse : ResultCode := -15
def maxRetriesExceeded : ResultCode := -11
def serializeError : ResultCode := -10
def serverNotAvailable : ResultCode := -8
def queryTerminated : ResultCode := -5
/-- The gateway's queue of requests is full. -/
def gatewayQueueFull : ResultCode := -3
def parseError : ResultCode := -2
def clientError : ResultCode := -1
def ok : ResultCode := 0
def serverError : ResultCode := 1
def keyNotFound : ResultCode := 2
def timeout : ResultCode := 9
def partitionUnavailable : ResultCode := 11
def filteredOut : ResultCode := 27
def notAuthenticated : ResultCode := 80
def roleViolation : ResultCode := 81
def forbidden : ResultCode := 82
def quotaExceeded : ResultCode := 83
def udfBadResponse : ResultCode := 100

/-- The meaning of a code in words. -/
def describe (code : ResultCode) : String :=
  match code with
  | -21 => "grpc error"
  | -16 => "one or more batch sub-commands failed"
  | -15 => "no response received"
  | -11 => "max retries exceeded"
  | -10 => "serialize error"
  | -8 => "server not available"
  | -5 => "query terminated"
  | -3 => "server queue full"
  | -2 => "parse error"
  | -1 => "client error"
  | 0 => "ok"
  | 1 => "server error"
  | 2 => "key not found"
  | 3 => "generation error"
  | 4 => "parameter error"
  | 5 => "key already exists"
  | 6 => "bin already exists"
  | 9 => "timeout"
  | 10 => "operation not allowed"
  | 11 => "partition unavailable"
  | 12 => "bin type error"
  | 13 => "record too big"
  | 14 => "hot key"
  | 16 => "unsupported server feature"
  | 17 => "bin not found"
  | 18 => "device overload"
  | 20 => "namespace not found"
  | 27 => "transaction filtered out"
  | 50 => "query end"
  | 80 => "not authenticated"
  | 81 => "role violation"
  | 82 => "operation forbidden"
  | 83 => "quota exceeded"
  | 100 => "udf returned error"
  | 150 => "batch functionality has been disabled"
  | 201 => "index not found"
  | 210 => "query aborted"
  | 211 => "query queue full"
  | _ => "unknown result code"

end ResultCode
end RecordGateway
