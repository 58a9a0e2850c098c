import RecordGateway.Batch.Slot
import RecordGateway.FrameReader

/-!
Putting the answer to a batch together. Rows arrive in any order and say by their index which
position of the request they answer. The answer is complete only when its last frame has arrived,
even if a row has said before that it is the last.
-/

namespace RecordGateway.Batch

/-- The slots of a batch as far as they are answered. -/
structure Tally where
  slots : List Slot
  /-- The number of rows that answered a slot. -/
  rows : Nat := 0
  /-- Whether a slot has an error or, at the end, no outcome. -/
  hasRowError : Bool := false
deriving Repr

namespace Tally

/-- Reads one row; `none` is the row after the last. -/
def readRow : Row.Reader (Option (Row.Header × Record)) := do
  let header ← Row.Header.read
  if header.isLast then
    if header.resultCode ≠ .ok then
      throw { Fault.ofCode header.resultCode with message := some "batch terminated by server" }
    return none
  Row.skipKey header.fieldCount.toNat
  return some (header, ← Row.readRecord header)

/-- Gives a row to its slot; a slot that has an outcome keeps it. -/
def place (plan : Plan) (tally : Tally) (header : Row.Header) (record : Record) :
    Except Fault Tally := do
  let index ← plan.slot header.index
  match tally.slots[index]? with
  | none => .error (.parse s!"batch slot {index} outside {tally.slots.length} records")
  | some slot =>
    if slot.isPending then
      let (slot, isError) := slot.answer header record
      return {
        slots := tally.slots.set index slot
        rows := tally.rows + 1
        hasRowError := tally.hasRowError || isError }
    else
      return tally

/-- Gives rows to their slots, up to the first that has none. -/
def placeAll (plan : Plan) (tally : Tally) : List (Row.Header × Record) → Tally × Option Fault
  | [] => (tally, none)
  | (header, record) :: rest =>
    match tally.place plan header record with
    | .error fault => (tally, some fault)
    | .ok tally => tally.placeAll plan rest

/-- Takes in the rows of one group; the flag tells whether the row after the last came. -/
def takeGroup (plan : Plan) (tally : Tally) (body : Bytes) : Tally × Except Fault Bool :=
  let (rows, ending) := Row.unfold readRow body.length { rest := body }
  match tally.placeAll plan rows with
  | (tally, some fault) => (tally, .error fault)
  | (tally, none) => (tally, ending)

/-- Ends a complete answer: a slot without an outcome is an error. -/
def finish (tally : Tally) : Tally :=
  { tally with hasRowError := tally.hasRowError || tally.slots.any Slot.isPending }

end Tally

/-- A batch whose answer is being read. -/
structure Reassembly where
  reader : FrameReader
  tally : Tally
deriving Repr

namespace Reassembly

/-- An activity that reads an answer into slots; both remain when it fails. -/
abbrev Assembling := ExceptT Fault (StateT Reassembly Flow)

def reading {α : Type} (activity : FrameReader.Reading α) : Assembling α :=
  ExceptT.mk fun state => do
    let (result, reader) ← activity.run.run state.reader
    return (result, { state with reader })

/-- Reads groups until a row says that it is the last, or the answer ends. Every group takes at
least one byte, so `fuel` may be one more than the number of bytes. -/
def readGroups (plan : Plan) : Nat → Assembling Unit
  | 0 => return
  | fuel + 1 => do
    match ← reading FrameReader.readGroup with
    | none => return
    | some body =>
      let (tally, ending) := (← get).tally.takeGroup plan body
      modify fun state => { state with tally }
      match ending with
      | .error fault => throw fault
      | .ok true => reading FrameReader.drain
      | .ok false => readGroups plan fuel

def run (plan : Plan) : Assembling Unit := do
  readGroups plan ((← get).reader.pending + 1)
  modify fun state => { state with tally := state.tally.finish }

end Reassembly
end RecordGateway.Batch
