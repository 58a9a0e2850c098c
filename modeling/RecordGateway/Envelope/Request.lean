import RecordGateway.Envelope.Wire

/-!
Requests to the gateway. Every call carries an id and the number of its attempt; what is asked for
is either a payload in the database's own format, with a policy, or a query, a scan or a background
task in messages of their own.
-/

namespace RecordGateway.Envelope

/-- Which copies of a record may answer. The fields hold the numbers of enumerations. -/
structure CopyPolicy where
  replica : Int32 := 0
  modeAp : Int32 := 0
  modeSc : Int32 := 0
deriving DecidableEq, Repr

structure QueryPolicy where
  copies : CopyPolicy := {}
  totalTimeout : UInt32 := 0
  includeBins : Bool := false
  queueSize : UInt32 := 0
  shortQuery : Bool := false
deriving DecidableEq, Repr

structure ScanPolicy where
  copies : CopyPolicy := {}
  totalTimeout : UInt32 := 0
  includeBins : Bool := false
  recordsPerSecond : UInt32 := 0
  maxRecords : UInt64 := 0
deriving DecidableEq, Repr

/-- A condition on an indexed bin. -/
structure Filter where
  bin : String := ""
  indexType : Int32 := 0
  valueType : Int32 := 0
  first : Bytes := []
  last : Bytes := []
deriving DecidableEq, Repr

/-- An operation of a background task. -/
structure Operation where
  kind : Int32 := 0
  bin : Option String := none
  value : Bytes := []
deriving DecidableEq, Repr

/-- What a query or a background task works on and does. -/
structure Statement where
  ns : String := ""
  set : String := ""
  index : Option String := none
  bins : List String := []
  filter : Option Filter := none
  package : Option String := none
  function : Option String := none
  arguments : List Bytes := []
  operations : List Operation := []
  taskId : UInt64 := 0
  maxRecords : UInt64 := 0
  recordsPerSecond : UInt32 := 0
deriving DecidableEq, Repr

/-- Where to go on in one partition. -/
structure PartitionStatus where
  id : UInt32 := 0
  position : Option Int64 := none
  digest : Option Bytes := none
  retry : Bool := false
deriving DecidableEq, Repr

/-- The partitions that a round asks for. -/
structure PartitionFilter where
  first : UInt32 := 0
  count : UInt32 := 0
  digest : Option Bytes := none
  statuses : List PartitionStatus := []
  retry : Bool := false
deriving DecidableEq, Repr

structure Query where
  policy : Option QueryPolicy := none
  statement : Option Statement := none
  partitions : Option PartitionFilter := none
deriving DecidableEq, Repr

structure Scan where
  policy : Option ScanPolicy := none
  ns : String := ""
  set : String := ""
  bins : List String := []
  partitions : Option PartitionFilter := none
deriving DecidableEq, Repr

/-- The start of a background task. -/
structure BackgroundTask where
  policy : Option CopyPolicy := none
  statement : Option Statement := none
deriving DecidableEq, Repr

/-- The question how far a background task is. -/
structure TaskQuestion where
  taskId : UInt64 := 0
  isScan : Bool := false
deriving DecidableEq, Repr

structure Request where
  id : UInt32 := 0
  iteration : UInt32 := 0
  payload : Bytes := []
  readPolicy : Option CopyPolicy := none
  writePolicy : Option CopyPolicy := none
  scan : Option Scan := none
  query : Option Query := none
  backgroundTask : Option BackgroundTask := none
  taskQuestion : Option TaskQuestion := none
deriving DecidableEq, Repr

/-! Each message lists its fields in the order of their numbers, and reads one field at a time. A
message inside a message is read into what was already there, so that it may come in parts. -/

/-- Reads the fields of an inner message into it. -/
def readInto? {α : Type} (add? : Nat → α → Field → Option α) (depth : Nat) (message : α)
    (wire : Wire) : Option α :=
  match depth with
  | 0 => none
  | depth + 1 => do
    let bytes ← wire.asBytes?
    (← readFields? depth bytes).foldlM (add? depth) message

namespace CopyPolicy

def toFields (p : CopyPolicy) : List Field :=
  int32Field 1 p.replica ++ int32Field 2 p.modeAp ++ int32Field 3 p.modeSc

def add? (_ : Nat) (p : CopyPolicy) (field : Field) : Option CopyPolicy :=
  match field.number with
  | 1 => do return { p with replica := ← field.value.asInt32? }
  | 2 => do return { p with modeAp := ← field.value.asInt32? }
  | 3 => do return { p with modeSc := ← field.value.asInt32? }
  | _ => some p

end CopyPolicy

namespace QueryPolicy

def toFields (p : QueryPolicy) : List Field :=
  p.copies.toFields ++ uint32Field 4 p.totalTimeout ++ boolField 5 p.includeBins
    ++ uint32Field 6 p.queueSize ++ boolField 7 p.shortQuery

def add? (depth : Nat) (p : QueryPolicy) (field : Field) : Option QueryPolicy :=
  match field.number with
  | 4 => do return { p with totalTimeout := ← field.value.asUInt32? }
  | 5 => do return { p with includeBins := ← field.value.asBool? }
  | 6 => do return { p with queueSize := ← field.value.asUInt32? }
  | 7 => do return { p with shortQuery := ← field.value.asBool? }
  | _ => do return { p with copies := ← p.copies.add? depth field }

end QueryPolicy

namespace ScanPolicy

def toFields (p : ScanPolicy) : List Field :=
  p.copies.toFields ++ uint32Field 4 p.totalTimeout ++ boolField 5 p.includeBins
    ++ uint32Field 6 p.recordsPerSecond ++ uint64Field 7 p.maxRecords

def add? (depth : Nat) (p : ScanPolicy) (field : Field) : Option ScanPolicy :=
  match field.number with
  | 4 => do return { p with totalTimeout := ← field.value.asUInt32? }
  | 5 => do return { p with includeBins := ← field.value.asBool? }
  | 6 => do return { p with recordsPerSecond := ← field.value.asUInt32? }
  | 7 => do return { p with maxRecords := ← field.value.asUInt64? }
  | _ => do return { p with copies := ← p.copies.add? depth field }

end ScanPolicy

namespace Filter

def toFields (f : Filter) : List Field :=
  textField 1 f.bin ++ int32Field 2 f.indexType ++ int32Field 3 f.valueType
    ++ bytesField 4 f.first ++ bytesField 5 f.last

def add? (_ : Nat) (f : Filter) (field : Field) : Option Filter :=
  match field.number with
  | 1 => do return { f with bin := ← field.value.asText? }
  | 2 => do return { f with indexType := ← field.value.asInt32? }
  | 3 => do return { f with valueType := ← field.value.asInt32? }
  | 4 => do return { f with first := ← field.value.asBytes? }
  | 5 => do return { f with last := ← field.value.asBytes? }
  | _ => some f

end Filter

namespace Operation

def toFields (o : Operation) : List Field :=
  int32Field 1 o.kind ++ presentTexts 2 o.bin.toList ++ bytesField 3 o.value

def add? (_ : Nat) (o : Operation) (field : Field) : Option Operation :=
  match field.number with
  | 1 => do return { o with kind := ← field.value.asInt32? }
  | 2 => do return { o with bin := some (← field.value.asText?) }
  | 3 => do return { o with value := ← field.value.asBytes? }
  | _ => some o

end Operation

namespace Statement

def toFields (s : Statement) : List Field :=
  textField 1 s.ns ++ textField 2 s.set ++ presentTexts 3 s.index.toList ++ presentTexts 4 s.bins
    ++ presentMessages 5 (s.filter.toList.map Filter.toFields)
    ++ presentTexts 6 s.package.toList ++ presentTexts 7 s.function.toList
    ++ presentBytes 8 s.arguments ++ presentMessages 9 (s.operations.map Operation.toFields)
    ++ uint64Field 10 s.taskId ++ uint64Field 11 s.maxRecords
    ++ uint32Field 12 s.recordsPerSecond

def add? (depth : Nat) (s : Statement) (field : Field) : Option Statement :=
  let value := field.value
  match field.number with
  | 1 => do return { s with ns := ← value.asText? }
  | 2 => do return { s with set := ← value.asText? }
  | 3 => do return { s with index := some (← value.asText?) }
  | 4 => do return { s with bins := s.bins ++ [← value.asText?] }
  | 5 => do
    return { s with filter := some (← readInto? Filter.add? depth (s.filter.getD {}) value) }
  | 6 => do return { s with package := some (← value.asText?) }
  | 7 => do return { s with function := some (← value.asText?) }
  | 8 => do return { s with arguments := s.arguments ++ [← value.asBytes?] }
  | 9 => do
    return { s with operations := s.operations ++ [← readInto? Operation.add? depth {} value] }
  | 10 => do return { s with taskId := ← value.asUInt64? }
  | 11 => do return { s with maxRecords := ← value.asUInt64? }
  | 12 => do return { s with recordsPerSecond := ← value.asUInt32? }
  | _ => some s

end Statement

namespace PartitionStatus

def toFields (p : PartitionStatus) : List Field :=
  uint32Field 1 p.id ++ p.position.toList.map (fun position => ⟨2, .varint position.toUInt64⟩)
    ++ presentBytes 3 p.digest.toList ++ boolField 4 p.retry

def add? (_ : Nat) (p : PartitionStatus) (field : Field) : Option PartitionStatus :=
  match field.number with
  | 1 => do return { p with id := ← field.value.asUInt32? }
  | 2 => do return { p with position := some (← field.value.asInt64?) }
  | 3 => do return { p with digest := some (← field.value.asBytes?) }
  | 4 => do return { p with retry := ← field.value.asBool? }
  | _ => some p

end PartitionStatus

namespace PartitionFilter

def toFields (p : PartitionFilter) : List Field :=
  uint32Field 1 p.first ++ uint32Field 2 p.count ++ presentBytes 3 p.digest.toList
    ++ presentMessages 4 (p.statuses.map PartitionStatus.toFields) ++ boolField 5 p.retry

def add? (depth : Nat) (p : PartitionFilter) (field : Field) : Option PartitionFilter :=
  let value := field.value
  match field.number with
  | 1 => do return { p with first := ← value.asUInt32? }
  | 2 => do return { p with count := ← value.asUInt32? }
  | 3 => do return { p with digest := some (← value.asBytes?) }
  | 4 => do
    return { p with statuses := p.statuses ++ [← readInto? PartitionStatus.add? depth {} value] }
  | 5 => do return { p with retry := ← value.asBool? }
  | _ => some p

end PartitionFilter

namespace Query

def toFields (q : Query) : List Field :=
  presentMessages 1 (q.policy.toList.map QueryPolicy.toFields)
    ++ presentMessages 2 (q.statement.toList.map Statement.toFields)
    ++ presentMessages 3 (q.partitions.toList.map PartitionFilter.toFields)

def add? (depth : Nat) (q : Query) (field : Field) : Option Query :=
  let value := field.value
  match field.number with
  | 1 => do
    return { q with policy := some (← readInto? QueryPolicy.add? depth (q.policy.getD {}) value) }
  | 2 => do
    let statement ← readInto? Statement.add? depth (q.statement.getD {}) value
    return { q with statement := some statement }
  | 3 => do
    let partitions ← readInto? PartitionFilter.add? depth (q.partitions.getD {}) value
    return { q with partitions := some partitions }
  | _ => some q

end Query

namespace Scan

def toFields (s : Scan) : List Field :=
  presentMessages 1 (s.policy.toList.map ScanPolicy.toFields)
    ++ textField 2 s.ns ++ textField 3 s.set ++ presentTexts 4 s.bins
    ++ presentMessages 5 (s.partitions.toList.map PartitionFilter.toFields)

def add? (depth : Nat) (s : Scan) (field : Field) : Option Scan :=
  let value := field.value
  match field.number with
  | 1 => do
    return { s with policy := some (← readInto? ScanPolicy.add? depth (s.policy.getD {}) value) }
  | 2 => do return { s with ns := ← value.asText? }
  | 3 => do return { s with set := ← value.asText? }
  | 4 => do return { s with bins := s.bins ++ [← value.asText?] }
  | 5 => do
    let partitions ← readInto? PartitionFilter.add? depth (s.partitions.getD {}) value
    return { s with partitions := some partitions }
  | _ => some s

end Scan

namespace BackgroundTask

def toFields (b : BackgroundTask) : List Field :=
  presentMessages 1 (b.policy.toList.map CopyPolicy.toFields)
    ++ presentMessages 2 (b.statement.toList.map Statement.toFields)

def add? (depth : Nat) (b : BackgroundTask) (field : Field) : Option BackgroundTask :=
  let value := field.value
  match field.number with
  | 1 => do
    return { b with policy := some (← readInto? CopyPolicy.add? depth (b.policy.getD {}) value) }
  | 2 => do
    let statement ← readInto? Statement.add? depth (b.statement.getD {}) value
    return { b with statement := some statement }
  | _ => some b

end BackgroundTask

namespace TaskQuestion

def toFields (q : TaskQuestion) : List Field :=
  uint64Field 1 q.taskId ++ boolField 2 q.isScan

def add? (_ : Nat) (q : TaskQuestion) (field : Field) : Option TaskQuestion :=
  match field.number with
  | 1 => do return { q with taskId := ← field.value.asUInt64? }
  | 2 => do return { q with isScan := ← field.value.asBool? }
  | _ => some q

end TaskQuestion

namespace Request

def toFields (r : Request) : List Field :=
  uint32Field 1 r.id ++ uint32Field 2 r.iteration ++ bytesField 3 r.payload
    ++ presentMessages 4 (r.readPolicy.toList.map CopyPolicy.toFields)
    ++ presentMessages 5 (r.writePolicy.toList.map CopyPolicy.toFields)
    ++ presentMessages 6 (r.scan.toList.map Scan.toFields)
    ++ presentMessages 7 (r.query.toList.map Query.toFields)
    ++ presentMessages 8 (r.backgroundTask.toList.map BackgroundTask.toFields)
    ++ presentMessages 9 (r.taskQuestion.toList.map TaskQuestion.toFields)

def add? (depth : Nat) (r : Request) (field : Field) : Option Request :=
  let value := field.value
  match field.number with
  | 1 => do return { r with id := ← value.asUInt32? }
  | 2 => do return { r with iteration := ← value.asUInt32? }
  | 3 => do return { r with payload := ← value.asBytes? }
  | 4 => do
    let policy ← readInto? CopyPolicy.add? depth (r.readPolicy.getD {}) value
    return { r with readPolicy := some policy }
  | 5 => do
    let policy ← readInto? CopyPolicy.add? depth (r.writePolicy.getD {}) value
    return { r with writePolicy := some policy }
  | 6 => do return { r with scan := some (← readInto? Scan.add? depth (r.scan.getD {}) value) }
  | 7 => do return { r with query := some (← readInto? Query.add? depth (r.query.getD {}) value) }
  | 8 => do
    let task ← readInto? BackgroundTask.add? depth (r.backgroundTask.getD {}) value
    return { r with backgroundTask := some task }
  | 9 => do
    let question ← readInto? TaskQuestion.add? depth (r.taskQuestion.getD {}) value
    return { r with taskQuestion := some question }
  | _ => some r

def encode (r : Request) : Bytes :=
  encodeFields r.toFields

/-- The request that the bytes hold. -/
def decode? (bytes : Bytes) : Option Request := do
  (← readFields? maxDepth bytes).foldlM (add? maxDepth) {}

end Request

/-- The credentials with which a client asks for an access token. -/
structure Login where
  user : String
  password : String
deriving DecidableEq, Repr

def Login.encode (login : Login) : Bytes :=
  encodeFields (textField 1 login.user ++ textField 2 login.password)

end RecordGateway.Envelope
