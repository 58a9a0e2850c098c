import RecordGateway.Record
import RecordGateway.Row.Cursor
import RecordGateway.Text.Utf8

/-! Values from particles: a type number and the bytes of the value. -/

namespace RecordGateway

/-- Reads bytes as text; `what` says in the fault what they should have been. -/
def readText (what : String) (bytes : Bytes) : Except Fault String :=
  match Utf8.decode? bytes with
  | some text => .ok text
  | none =>
    .error (.parse (what ++ " is not utf-8") ((Utf8.flaw? bytes).map Utf8.Flaw.describe).toList)

namespace Value

/-- An integer of at most eight bytes; only all eight of them carry a sign. -/
def readInt (bytes : Bytes) : Except Fault Int64 :=
  if bytes.length ≤ 8 then .ok (BigEndian.decode bytes).toUInt64.toInt64
  else .error (.parse s!"integer particle has {bytes.length} bytes")

/-- A double in its eight bytes. -/
def readDouble (bytes : Bytes) : Except Fault UInt64 :=
  if bytes.length = 8 then .ok (BigEndian.decode bytes).toUInt64
  else .error (.parse s!"double particle has {bytes.length} bytes")

/-- A geographic shape: a byte of flags, a counted list of eight-byte cells, and the text of the
shape. -/
def readGeoJson (bytes : Bytes) : Except Fault String := do
  let reader : Row.Reader Bytes := do
    Row.skip 1
    let cells ← Row.readUInt16
    Row.skip (8 * cells.toNat)
    return (← get).rest
  readText "geojson particle" (← reader.outcome bytes)

def ofParticle (type : UInt8) (bytes : Bytes) : Except Fault Value :=
  match Particle.ofByte type with
  | .null => .ok .nil
  | .integer => .int <$> readInt bytes
  | .double => .float <$> readDouble bytes
  | .string => .string <$> readText "string particle" bytes
  | .blob => .ok (.blob bytes)
  | .bool =>
    match bytes with
    | [byte] => .ok (.bool (byte != 0))
    | bytes => (fun value => .bool (value != 0)) <$> readInt bytes
  | .geoJson => .geoJson <$> readGeoJson bytes
  | particle => .ok (.packed particle bytes)

end Value
end RecordGateway
