import RecordGateway.Envelope.Request

/-!
Policies: how long a call may take, how often it is tried, and which copies of a record may answer.
Times are whole milliseconds. A time limit of zero means that there is none.
-/

namespace RecordGateway

/-- A moment, or a span of time, in milliseconds. -/
abbrev Time := Nat

/-- Which copy of a record is asked. -/
inductive Replica where
  | sequence
  | master
  | masterProles
  | preferRack
  | random
deriving DecidableEq, Repr

/-- How many copies must agree where availability comes first. -/
inductive ReadModeAp where
  | one
  | all
deriving DecidableEq, Repr

/-- What a read guarantees where consistency comes first. -/
inductive ReadModeSc where
  | session
  | linearize
  | allowReplica
  | allowUnavailable
deriving DecidableEq, Repr

def Replica.number : Replica → Int32
  | .sequence => 0
  | .master => 1
  | .masterProles => 2
  | .preferRack => 3
  | .random => 4

def ReadModeAp.number : ReadModeAp → Int32
  | .one => 0
  | .all => 1

def ReadModeSc.number : ReadModeSc → Int32
  | .session => 0
  | .linearize => 1
  | .allowReplica => 2
  | .allowUnavailable => 3

/-- The replica with a given number; the default for a number without one. -/
def Replica.ofNumber (number : Int32) : Replica :=
  ([.sequence, .master, .masterProles, .preferRack, .random].find? (·.number = number)).getD
    .sequence

/-- The mode with a given number; the default for a number without one. -/
def ReadModeAp.ofNumber (number : Int32) : ReadModeAp :=
  ([.one, .all].find? (·.number = number)).getD .one

/-- The mode with a given number; the default for a number without one. -/
def ReadModeSc.ofNumber (number : Int32) : ReadModeSc :=
  ([.session, .linearize, .allowReplica, .allowUnavailable].find? (·.number = number)).getD
    .session

theorem Replica.ofNumber_number (replica : Replica) : ofNumber replica.number = replica := by
  cases replica <;> rfl

theorem ReadModeAp.ofNumber_number (mode : ReadModeAp) : ofNumber mode.number = mode := by
  cases mode <;> rfl

theorem ReadModeSc.ofNumber_number (mode : ReadModeSc) : ofNumber mode.number = mode := by
  cases mode <;> rfl

/-- What all policies have in common. -/
structure Policy where
  totalTimeout : Time := 1000
  socketTimeout : Time := 30000
  maxRetries : Nat := 2
  sleepBetweenRetries : Time := 0
  replica : Replica := .sequence
  readModeAp : ReadModeAp := .one
  readModeSc : ReadModeSc := .session
  failOnFilteredOut : Bool := false
deriving DecidableEq, Repr

namespace Policy

/-- The policy of writes unless the caller asks for another: a write is not repeated. -/
def forWrites : Policy :=
  { maxRetries := 0 }

/-- The policy of queries and scans unless the caller asks for another. -/
def forStreams : Policy :=
  { totalTimeout := 0, maxRetries := 5 }

/-- When a call that begins at `start` has to be over, if it has to. -/
def deadline (policy : Policy) (start : Time) : Option Time :=
  if policy.totalTimeout = 0 then none else some (start + policy.totalTimeout)

/-- When an attempt that begins now has to be over: after the socket timeout, and no later than the
whole call. -/
def attemptDeadline (policy : Policy) (now : Time) (total : Option Time) : Option Time :=
  if policy.socketTimeout = 0 then total
  else
    match total with
    | some total => some (min (now + policy.socketTimeout) total)
    | none => some (now + policy.socketTimeout)

/-- The part of the policy that the gateway is told. -/
def copies (policy : Policy) : Envelope.CopyPolicy where
  replica := policy.replica.number
  modeAp := policy.readModeAp.number
  modeSc := policy.readModeSc.number

/-- The total timeout in thirty-two bits. -/
def wireTimeout (policy : Policy) : UInt32 :=
  (min policy.totalTimeout (UInt32.size - 1)).toUInt32

end Policy

structure QueryPolicy where
  base : Policy := .forStreams
  includeBins : Bool := true
  queueSize : Option Nat := none
  shortQuery : Bool := false
deriving DecidableEq, Repr

/-- The policy of a query as the gateway is told it. -/
def QueryPolicy.message (policy : QueryPolicy) : Envelope.QueryPolicy where
  copies := policy.base.copies
  totalTimeout := policy.base.wireTimeout
  includeBins := policy.includeBins
  queueSize := (policy.queueSize.getD 0).toUInt32
  shortQuery := policy.shortQuery

structure ScanPolicy where
  base : Policy := .forStreams
  includeBins : Bool := true
  recordsPerSecond : UInt32 := 0
  maxRecords : UInt64 := 0
  queueSize : Option Nat := none
deriving DecidableEq, Repr

/-- The policy of a scan as the gateway is told it. -/
def ScanPolicy.message (policy : ScanPolicy) : Envelope.ScanPolicy where
  copies := policy.base.copies
  totalTimeout := policy.base.wireTimeout
  includeBins := policy.includeBins
  recordsPerSecond := policy.recordsPerSecond
  maxRecords := policy.maxRecords

end RecordGateway
