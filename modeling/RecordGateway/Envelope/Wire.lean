import RecordGateway.Text.Utf8

/-!
The tagged fields in which messages travel. A message is a run of fields, each a number, a wire type
and a value; a reader passes over fields that it does not know. Whether a plain field that holds its
default is written at all is decided by the message, not here.
-/

namespace RecordGateway.Envelope

/-- What a field holds on the wire. -/
inductive Wire where
  | varint (value : UInt64)
  | fixed64 (bytes : Bytes)
  | bytes (bytes : Bytes)
  /-- A bracketed run of fields, which no message here uses and every reader passes over. -/
  | group
  | fixed32 (bytes : Bytes)
deriving DecidableEq, Repr

structure Field where
  number : Nat
  value : Wire
deriving DecidableEq, Repr

/-- A number in groups of seven bits, lowest first, each byte but the last marked. -/
def encodeVarint (n : Nat) : Bytes :=
  if n < 128 then [n.toUInt8] else (n % 128 + 128).toUInt8 :: encodeVarint (n / 128)
termination_by n

/-- The number at the beginning, of at most `limit` bytes and of at most sixty-four bits: the byte
that would be the tenth has one bit left. -/
def takeVarint? : Nat → Bytes → Option (Nat × Bytes)
  | 0, _ => none
  | _, [] => none
  | limit + 1, byte :: rest =>
    if byte < 128 then
      if limit = 0 ∧ 2 ≤ byte then none else some (byte.toNat, rest)
    else do
      let (high, rest) ← takeVarint? limit rest
      return (byte.toNat - 128 + 128 * high, rest)

/-- The number at the beginning. -/
def varint? (bytes : Bytes) : Option (Nat × Bytes) :=
  takeVarint? 10 bytes

/-- The bytes at the beginning, if there are so many. -/
def takeBytes? (count : Nat) (bytes : Bytes) : Option (Bytes × Bytes) :=
  if count ≤ bytes.length then some (bytes.take count, bytes.drop count) else none

/-- The number and wire type of a field. -/
def takeTag? (bytes : Bytes) : Option (Nat × Nat × Bytes) := do
  let (tag, rest) ← varint? bytes
  if UInt32.size ≤ tag ∨ tag / 8 = 0 then none
  return (tag / 8, tag % 8, rest)

mutual

/-- The value of a field of a given number and wire type. Groups may be nested as deep as `depth`;
`fuel` bounds the number of fields. -/
def takeValue? (depth fuel number wireType : Nat) (bytes : Bytes) : Option (Wire × Bytes) :=
  match wireType with
  | 0 => (varint? bytes).map fun (n, rest) => (.varint n.toUInt64, rest)
  | 1 => (takeBytes? 8 bytes).map fun (value, rest) => (.fixed64 value, rest)
  | 2 => do
    let (length, rest) ← varint? bytes
    let (value, rest) ← takeBytes? length rest
    return (.bytes value, rest)
  | 3 =>
    match depth with
    | 0 => none
    | depth + 1 => (skipGroup? depth fuel number bytes).map fun rest => (.group, rest)
  | 5 => (takeBytes? 4 bytes).map fun (value, rest) => (.fixed32 value, rest)
  | _ => none
termination_by (fuel, 1)

/-- Passes over the fields of a group up to its end mark. -/
def skipGroup? (depth fuel number : Nat) (bytes : Bytes) : Option Bytes :=
  match fuel with
  | 0 => none
  | fuel + 1 => do
    let (inner, wireType, rest) ← takeTag? bytes
    if wireType = 4 then
      if inner = number then some rest else none
    else if depth = 0 then none
    else
      let (_, rest) ← takeValue? depth fuel inner wireType rest
      skipGroup? depth fuel number rest
termination_by (fuel, 0)

end

/-- The fields of a message up to the end of the bytes. Every field takes at least one byte, so
`fuel` may be the number of bytes. -/
def takeFields? (depth : Nat) : Nat → Bytes → Option (List Field)
  | _, [] => some []
  | 0, _ => none
  | fuel + 1, bytes => do
    let (number, wireType, rest) ← takeTag? bytes
    let (value, rest) ← takeValue? depth (fuel + 1) number wireType rest
    let fields ← takeFields? depth fuel rest
    return ⟨number, value⟩ :: fields

/-- How deep messages and groups may be nested. -/
def maxDepth : Nat := 100

/-- The fields of a message at a given depth. -/
def readFields? (depth : Nat) (bytes : Bytes) : Option (List Field) :=
  takeFields? depth bytes.length bytes

/-- The number of a wire type. -/
def Wire.typeNumber : Wire → Nat
  | .varint _ => 0
  | .fixed64 _ => 1
  | .bytes _ => 2
  | .group => 3
  | .fixed32 _ => 5

/-- The bytes of a field's value; a group is written without fields, before its end mark. -/
def Wire.encode (number : Nat) : Wire → Bytes
  | .varint value => encodeVarint value.toNat
  | .fixed64 value => value
  | .bytes value => encodeVarint value.length ++ value
  | .group => encodeVarint (8 * number + 4)
  | .fixed32 value => value

def Field.encode (field : Field) : Bytes :=
  encodeVarint (8 * field.number + field.value.typeNumber) ++ field.value.encode field.number

def encodeFields (fields : List Field) : Bytes :=
  fields.flatMap Field.encode

/-! Fields as messages write them: a plain field only when it differs from its default, and an
optional one whenever it is present. -/

/-- A plain field of thirty-two bits. -/
def uint32Field (number : Nat) (value : UInt32) : List Field :=
  if value = 0 then [] else [⟨number, .varint value.toUInt64⟩]

/-- A plain field of sixty-four bits. -/
def uint64Field (number : Nat) (value : UInt64) : List Field :=
  if value = 0 then [] else [⟨number, .varint value⟩]

/-- A present field of thirty-two signed bits, extended by its sign to sixty-four. -/
def presentInt32 (number : Nat) (value : Int32) : Field :=
  ⟨number, .varint value.toInt64.toUInt64⟩

/-- A plain field of thirty-two signed bits. -/
def int32Field (number : Nat) (value : Int32) : List Field :=
  if value = 0 then [] else [presentInt32 number value]

/-- A plain field that is true or false. -/
def boolField (number : Nat) (value : Bool) : List Field :=
  if value then [⟨number, .varint 1⟩] else []

def bytesField (number : Nat) (value : Bytes) : List Field :=
  if value = [] then [] else [⟨number, .bytes value⟩]

def textField (number : Nat) (value : String) : List Field :=
  bytesField number (utf8 value)

/-- A field of bytes for each item; an optional field has at most one. -/
def presentBytes (number : Nat) (values : List Bytes) : List Field :=
  values.map fun value => ⟨number, .bytes value⟩

/-- A field of text for each item; an optional field has at most one. -/
def presentTexts (number : Nat) (values : List String) : List Field :=
  presentBytes number (values.map utf8)

/-- A field with the fields of a message for each item; an optional field has at most one. -/
def presentMessages (number : Nat) (values : List (List Field)) : List Field :=
  presentBytes number (values.map encodeFields)

/-! Values as readers take them: a wire type other than the field's own is refused. -/

namespace Wire

def asUInt64? : Wire → Option UInt64
  | .varint value => some value
  | _ => none

def asUInt32? (wire : Wire) : Option UInt32 :=
  wire.asUInt64?.map (·.toUInt32)

def asInt32? (wire : Wire) : Option Int32 :=
  wire.asUInt64?.map (·.toUInt32.toInt32)

def asInt64? (wire : Wire) : Option Int64 :=
  wire.asUInt64?.map (·.toInt64)

def asBool? (wire : Wire) : Option Bool :=
  wire.asUInt64?.map (· != 0)

def asBytes? : Wire → Option Bytes
  | .bytes value => some value
  | _ => none

def asText? (wire : Wire) : Option String :=
  wire.asBytes? >>= Utf8.decode?

end Wire
end RecordGateway.Envelope
