import RecordGateway.Value

/-!
Records, the keys that name them and the operations on their bins. The bins of a record are kept in
the order of their names, each name once.
-/

namespace RecordGateway

/-- The digest of a key: twenty bytes that place the record. -/
structure Digest where
  bytes : Bytes
  length_eq : bytes.length = 20
deriving DecidableEq, Repr

/-- The digest that consists of the given bytes, if there are twenty. -/
def Digest.ofBytes? (bytes : Bytes) : Option Digest :=
  if h : bytes.length = 20 then some ⟨bytes, h⟩ else none

structure Key where
  ns : String := ""
  set : String := ""
  userKey : Option Value := none
  digest : Option Digest := none
deriving Repr

/-- A stored record: its bins, how often it was written, and when it expires. -/
structure Record where
  bins : List (String × Value) := []
  generation : UInt32
  expiration : UInt32
deriving Repr

namespace Record

/-- The bins with one more value. A new name takes its place in the order; a name seen before
collects its values. -/
def pushInto (name : String) (value : Value) : List (String × Value) → List (String × Value)
  | [] => [(name, value)]
  | (first, held) :: rest =>
    if name = first then (first, held.collect value) :: rest
    else if name < first then (name, value) :: (first, held) :: rest
    else (first, held) :: pushInto name value rest

/-- The record with one more value. -/
def pushBin (record : Record) (name : String) (value : Value) : Record :=
  { record with bins := pushInto name value record.bins }

def get? (record : Record) (name : String) : Option Value :=
  record.bins.lookup name

end Record

/-- What an operation does to a record. -/
inductive Operation.Kind where
  | read
  | readHeader
  | write
  | add
  | append
  | prepend
  | touch
  | delete
  | collectionRead
  | collectionModify
deriving DecidableEq, Repr

/-- Whether operations of a kind can change a record. -/
def Operation.Kind.isWrite : Operation.Kind → Bool
  | .read | .readHeader | .collectionRead => false
  | .write | .add | .append | .prepend | .touch | .delete | .collectionModify => true

/-- An operation on a record or one of its bins. -/
structure Operation where
  kind : Operation.Kind
  bin : Option String := none
  value : Value := .nil
deriving Repr

/-- Whether one of the operations can change the record. -/
def Operation.anyWrite (operations : List Operation) : Bool :=
  operations.any fun operation => operation.kind.isWrite

end RecordGateway
