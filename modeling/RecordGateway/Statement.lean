import RecordGateway.Framer

/-! Statements: what a query or a background task works on, and what it does there. -/

namespace RecordGateway

/-- Which part of a collection an index covers. -/
inductive IndexCollection where
  | whole
  | list
  | mapKeys
  | mapValues
deriving DecidableEq, Repr

def IndexCollection.number : IndexCollection → Int32
  | .whole => 0
  | .list => 1
  | .mapKeys => 2
  | .mapValues => 3

/-- A condition on an indexed bin: its value lies between two bounds. -/
structure Condition where
  bin : String
  collection : IndexCollection
  particle : Particle
  first : Value
  last : Value
deriving Repr

namespace Condition

/-- The type under which a value is looked up. -/
def particleOf : Value → Particle
  | .int _ => .integer
  | .geoJson _ => .geoJson
  | .blob _ => .blob
  | _ => .string

/-- The collection of a bin contains a value. -/
def contains (bin : String) (collection : IndexCollection) (value : Value) : Condition :=
  { bin, collection, particle := particleOf value, first := value, last := value }

def equal (bin : String) (value : Value) : Condition :=
  contains bin .whole value

/-- The integer of a bin lies between two bounds. -/
def range (bin : String) (first last : Int64) : Condition :=
  { bin, collection := .whole, particle := .integer, first := .int first, last := .int last }

/-- The condition as the gateway is told it. -/
def message (framer : Framer) (condition : Condition) : Except Fault Envelope.Filter := do
  let first ← framer.value condition.first
  let last ← framer.value condition.last
  return {
    bin := condition.bin
    indexType := condition.collection.number
    valueType := condition.particle.toByte.toUInt32.toInt32
    first, last }

end Condition

/-- The number of a kind of operation in a background task. -/
def Operation.Kind.number : Operation.Kind → Int32
  | .read | .readHeader => 1
  | .write => 2
  | .collectionRead => 3
  | .collectionModify => 4
  | .add => 5
  | .append => 9
  | .prepend => 10
  | .touch => 11
  | .delete => 14

/-- What a query or a background task works on and does. -/
structure Statement where
  ns : String := ""
  set : String := ""
  index : Option String := none
  bins : List String := []
  condition : Option Condition := none
  package : Option String := none
  function : Option String := none
  arguments : List Value := []
  operations : List Operation := []
  taskId : UInt64 := 0
  maxRecords : UInt64 := 0
  recordsPerSecond : UInt32 := 0
deriving Repr

namespace Statement

/-- A statement without a condition reads every record. -/
def isScan (statement : Statement) : Bool :=
  statement.condition.isNone

/-- An operation as the gateway is told it. -/
def operationMessage (framer : Framer) (operation : Operation) :
    Except Fault Envelope.Operation := do
  return {
    kind := operation.kind.number
    bin := operation.bin
    value := ← framer.value operation.value }

/-- The statement as the gateway is told it. -/
def message (framer : Framer) (statement : Statement) : Except Fault Envelope.Statement := do
  let filter ← statement.condition.mapM (Condition.message framer)
  let arguments ← statement.arguments.mapM framer.value
  let operations ← statement.operations.mapM (operationMessage framer)
  return {
    ns := statement.ns
    set := statement.set
    index := statement.index
    bins := statement.bins
    filter
    package := statement.package
    function := statement.function
    arguments, operations
    taskId := statement.taskId
    maxRecords := statement.maxRecords
    recordsPerSecond := statement.recordsPerSecond }

end Statement
end RecordGateway
