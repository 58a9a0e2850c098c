import RecordGateway.Envelope.Wire

/-!
Responses of the gateway. A response is one frame of the answer to a call: a status of its own, a
piece of the payload, and whether more frames follow.
-/

namespace RecordGateway.Envelope

structure Response where
  status : Int32 := 0
  payload : Bytes := []
  inDoubt : Bool := false
  id : UInt32 := 0
  hasNext : Bool := false
  taskStatus : Option Int32 := none
deriving DecidableEq, Repr

namespace Response

def toFields (r : Response) : List Field :=
  int32Field 1 r.status ++ bytesField 2 r.payload ++ boolField 3 r.inDoubt ++ uint32Field 4 r.id
    ++ boolField 5 r.hasNext ++ r.taskStatus.toList.map (presentInt32 6)

/-- The response with one more field; later fields replace earlier ones. -/
def add? (r : Response) (field : Field) : Option Response :=
  match field.number with
  | 1 => do return { r with status := ← field.value.asInt32? }
  | 2 => do return { r with payload := ← field.value.asBytes? }
  | 3 => do return { r with inDoubt := ← field.value.asBool? }
  | 4 => do return { r with id := ← field.value.asUInt32? }
  | 5 => do return { r with hasNext := ← field.value.asBool? }
  | 6 => do return { r with taskStatus := some (← field.value.asInt32?) }
  | _ => some r

def encode (r : Response) : Bytes :=
  encodeFields r.toFields

/-- The response that the bytes hold. -/
def decode? (bytes : Bytes) : Option Response := do
  (← readFields? maxDepth bytes).foldlM add? {}

end Response

/-- What the gateway knows of a background task. -/
inductive TaskStatus where
  | notFound
  | inProgress
  | complete
deriving DecidableEq, Repr

namespace TaskStatus

/-- The name of a status as it appears in texts. -/
def name : TaskStatus → String
  | .notFound => "NotFound"
  | .inProgress => "InProgress"
  | .complete => "Complete"

/-- The status that a response reports; an unknown one, or none, means that there is no task. -/
def ofResponse (r : Response) : TaskStatus :=
  match r.taskStatus with
  | some status =>
    if status = 2 then .complete else if status = 1 then .inProgress else .notFound
  | none => .notFound

end TaskStatus
end RecordGateway.Envelope
