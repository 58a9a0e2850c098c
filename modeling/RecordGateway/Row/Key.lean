import RecordGateway.Row.Particle

/-!
The key fields of a row. Each is a length, a type byte that the length includes, and data. A row is
read either with its key or without; both ways end at the same place.
-/

namespace RecordGateway.Row

/-- What a row tells of the key of its record. -/
structure KeyEcho where
  ns : Option String := none
  set : Option String := none
  digest : Option Digest := none
  userKey : Option Value := none
deriving Repr

/-- The key that a row tells, with empty names where it tells none. -/
def KeyEcho.toKey (echo : KeyEcho) : Key where
  ns := echo.ns.getD ""
  set := echo.set.getD ""
  userKey := echo.userKey
  digest := echo.digest

/-- The types of key field that have a meaning here. -/
inductive KeyField where
  | ns
  | set
  | userKey
  | digest
  | other
deriving DecidableEq, Repr

/-- The type of field with a given number. -/
def KeyField.ofByte (type : UInt8) : KeyField :=
  match type with
  | 0 => .ns
  | 1 => .set
  | 2 => .userKey
  | 4 => .digest
  | _ => .other

def skipKey : Nat → Reader Unit
  | 0 => return
  | count + 1 => do
    let size ← readUInt32
    skip size.toNat
    skipKey count

/-- The key with the data of one more field, which replaces an earlier field of its type. -/
def KeyEcho.add (echo : KeyEcho) (type : UInt8) (data : Bytes) : Except Fault KeyEcho :=
  match KeyField.ofByte type with
  | .ns => do return { echo with ns := ← readText "namespace" data }
  | .set => do return { echo with set := ← readText "set name" data }
  | .digest =>
    match Digest.ofBytes? data with
    | some digest => .ok { echo with digest }
    | none => .error (.parse s!"digest field has {data.length} bytes")
  | .userKey =>
    match data with
    | [] => .error (.parse "empty user key field")
    | type :: data => do return { echo with userKey := ← Value.ofParticle type data }
  | .other => .ok echo

/-- Reads key fields into what is known of the key. -/
def readKeyFrom (echo : KeyEcho) : Nat → Reader KeyEcho
  | 0 => return echo
  | count + 1 => do
    let size ← readUInt32
    if size = 0 then
      throw (.parse "zero length field")
    let type ← readByte
    let data ← readBytes (size.toNat - 1)
    let echo ← echo.add type data
    readKeyFrom echo count

def readKey (count : Nat) : Reader KeyEcho :=
  readKeyFrom {} count

end RecordGateway.Row
