import RecordGateway.Bytes.BigEndian

/-!
Values of bins and keys. On the wire each is a particle: a type number and bytes. Collections that
the server packs stay in their packed form.
-/

namespace RecordGateway

/-- The types of value that the database stores. -/
inductive Particle where
  | null
  | integer
  | double
  | string
  | blob
  | bool
  | hll
  | map
  | list
  | geoJson
  | other (number : UInt8)
deriving DecidableEq, Repr

namespace Particle

/-- The type with a given number. -/
def ofByte (number : UInt8) : Particle :=
  match number with
  | 0 => .null
  | 1 => .integer
  | 2 => .double
  | 3 => .string
  | 4 => .blob
  | 17 => .bool
  | 18 => .hll
  | 19 => .map
  | 20 => .list
  | 23 => .geoJson
  | number => .other number

def toByte : Particle → UInt8
  | .null => 0
  | .integer => 1
  | .double => 2
  | .string => 3
  | .blob => 4
  | .bool => 17
  | .hll => 18
  | .map => 19
  | .list => 20
  | .geoJson => 23
  | .other number => number

/-- The name of a type as it appears in texts. -/
def name : Particle → String
  | .null => "Null"
  | .integer => "Integer"
  | .double => "Double"
  | .string => "String"
  | .blob => "Blob"
  | .bool => "Bool"
  | .hll => "Hll"
  | .map => "Map"
  | .list => "List"
  | .geoJson => "GeoJson"
  | .other number => s!"Other({number})"

theorem toByte_ofByte (number : UInt8) : (ofByte number).toByte = number := by
  unfold ofByte
  split <;> rfl

end Particle

/-- The value of a bin or a key. -/
inductive Value where
  | nil
  | bool (value : Bool)
  | int (value : Int64)
  /-- A double, kept as its bits. -/
  | float (bits : UInt64)
  | string (text : String)
  | blob (bytes : Bytes)
  | geoJson (text : String)
  /-- A collection in the form in which the server packs it. -/
  | packed (particle : Particle) (bytes : Bytes)
  /-- Several results for one bin, in the order of their operations. -/
  | list (items : List Value)
deriving Repr

namespace Value

/-- The text of a value that is one. -/
def asText? : Value → Option String
  | .string text | .geoJson text => some text
  | _ => none

/-- The integer of a value that is one. -/
def asInt? : Value → Option Int64
  | .int value => some value
  | _ => none

def isNil : Value → Bool
  | .nil => true
  | _ => false

/-- A further result for the same bin: the results are collected in a list. -/
def collect (value next : Value) : Value :=
  match value with
  | .list items => .list (items ++ [next])
  | value => .list [value, next]

end Value
end RecordGateway
