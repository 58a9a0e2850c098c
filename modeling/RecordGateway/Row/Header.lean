import RecordGateway.Row.Cursor

/-!
The fixed part of a row: flags, the result code, the numbers that belong to the record, and how many
key fields and bins follow. It states its own length, which may exceed the part known here.
-/

namespace RecordGateway.Row

/-- The fixed part of a row. -/
structure Header where
  length : UInt8
  info1 : UInt8
  info2 : UInt8
  info3 : UInt8
  code : UInt8
  generation : UInt32
  expiration : UInt32
  /-- In an answer to a batch the position of the row in the request. -/
  index : UInt32
  fieldCount : UInt16
  opCount : UInt16
deriving DecidableEq, Repr

namespace Header

/-- The length of the part known here. -/
def minLength : Nat := 22

/-- The outcome that the row reports. -/
def resultCode (header : Header) : ResultCode :=
  header.code.toNat

/-- Whether the row marks the end of all rows. -/
def isLast (header : Header) : Bool :=
  header.info3.toNat.testBit 0

/-- Whether the row marks the end of a partition. -/
def isPartitionDone (header : Header) : Bool :=
  header.info3.toNat.testBit 2

/-- Reads the fixed part of a row and passes over what is not known of it. -/
def read : Reader Header := do
  let length ← readByte
  if length.toNat < minLength then
    throw (.parse s!"message header length {length} below {minLength}")
  let info1 ← readByte
  let info2 ← readByte
  let info3 ← readByte
  skip 1
  let code ← readByte
  let generation ← readUInt32
  let expiration ← readUInt32
  let index ← readUInt32
  let fieldCount ← readUInt16
  let opCount ← readUInt16
  skip (length.toNat - minLength)
  return { length, info1, info2, info3, code, generation, expiration, index, fieldCount, opCount }

end Header
end RecordGateway.Row
