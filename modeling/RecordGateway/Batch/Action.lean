import RecordGateway.Record

/-! What a batch asks of each of its records. -/

namespace RecordGateway.Batch

/-- What is asked of one record of a batch. -/
inductive Action where
  | read (bins : Option (List String)) (operations : List Operation) (headerOnly : Bool)
  | write (operations : List Operation)
  | delete
  | udf (package function : String) (arguments : List Value)
deriving Repr

/-- Whether an action can change its record. -/
def Action.isWrite : Action → Bool
  | .read _ operations _ => Operation.anyWrite operations
  | .write _ | .delete | .udf .. => true

end RecordGateway.Batch
