import RecordGateway.Bytes.BigEndian
import RecordGateway.Fault

/-!
The eight bytes before every group of rows: a version, a type and the size of the body in six bytes.
-/

namespace RecordGateway.Group

/-- The number of bytes of a header. -/
def headerLength : Nat := 8

/-- The version that this side writes. -/
def version : UInt8 := 2

/-- The type of a group whose body holds the rows themselves. -/
def plainType : UInt8 := 3

/-- The type of a group whose body holds a whole plain group in compressed form. -/
def compressedType : UInt8 := 4

/-- The greatest size of a body, 128 MiB. -/
def maxSize : Nat := 128 * 1024 * 1024

structure Header where
  version : UInt8
  type : UInt8
  size : Nat
deriving DecidableEq, Repr

namespace Header

/-- The eight bytes of a header; of the size only the lowest six bytes are written. -/
def encode (header : Header) : Bytes :=
  header.version :: header.type :: BigEndian.encode 6 header.size

/-- Refuses a header with an unknown type, or else with a size above the greatest. -/
def check (header : Header) : Except Fault Header :=
  if header.type ≠ plainType ∧ header.type ≠ compressedType then
    .error (.parse s!"unexpected message type {header.type}")
  else if maxSize < header.size then
    .error (.parse s!"message group size {header.size} exceeds max")
  else
    .ok header

/-- Reads the header at the beginning of the bytes. -/
def decode (bytes : Bytes) : Except Fault Header :=
  match bytes.take headerLength with
  | version :: type :: size =>
    if size.length = 6 then check ⟨version, type, BigEndian.decode size⟩
    else .error (.parse "proto header too small")
  | _ => .error (.parse "proto header too small")

def isCompressed (header : Header) : Bool :=
  header.type == compressedType

end Header
end RecordGateway.Group
