import RecordGateway.Row.Header
import RecordGateway.Row.Key

/-! The bins of a row, and whole rows with and without their keys. -/

namespace RecordGateway.Row

/-- Reads one bin: a size that counts what follows it, four bytes of description, a name and a
value. -/
def readBin : Reader (String × Value) := do
  let size ← readUInt32
  skip 1
  let type ← readByte
  skip 1
  let nameLength ← readByte
  if size.toNat < 4 + nameLength.toNat then
    throw (.parse s!"op size {size} smaller than its header")
  let name ← readText "bin name" (← readBytes nameLength.toNat)
  let value ← Value.ofParticle type (← readBytes (size.toNat - (4 + nameLength.toNat)))
  return (name, value)

def readBinsInto (record : Record) : Nat → Reader Record
  | 0 => return record
  | count + 1 => do
    let (name, value) ← readBin
    readBinsInto (record.pushBin name value) count

/-- Reads the record that a fixed part announces. -/
def readRecord (header : Header) : Reader Record :=
  readBinsInto { generation := header.generation, expiration := header.expiration }
    header.opCount.toNat

/-- Reads a row and passes over its key. -/
def readAnonymous : Reader (Header × Record) := do
  let header ← Header.read
  skipKey header.fieldCount.toNat
  let record ← readRecord header
  return (header, record)

/-- Reads what follows the fixed part of a row, with the key. -/
def readKeyed (header : Header) : Reader (KeyEcho × Record) := do
  let key ← readKey header.fieldCount.toNat
  let record ← readRecord header
  return (key, record)

/-- Reads rows up to the end of the body. A row for which `step` gives no result ends the reading,
and so does one that cannot be read; what came before is kept. `fuel` bounds the number of rows. -/
def unfold {α : Type} (step : Reader (Option α)) : Nat → Cursor → List α × Except Fault Bool
  | 0, _ => ([], .ok false)
  | fuel + 1, cursor =>
    if cursor.isAtEnd then ([], .ok false)
    else
      match step.run.run cursor with
      | (.error fault, _) => ([], .error fault)
      | (.ok none, _) => ([], .ok true)
      | (.ok (some row), cursor) =>
        let (rows, ending) := unfold step fuel cursor
        (row :: rows, ending)

end RecordGateway.Row
