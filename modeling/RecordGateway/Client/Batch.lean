import RecordGateway.Batch.Reassembly
import RecordGateway.Client

/-!
Batches: many records in one request. Slots keep what arrived even if the call fails, and then those
without an outcome are swept.
-/

namespace RecordGateway.Client

open Batch (Slot Tally Plan Reassembly)

/-- Sends a batch: a reader of its answer. -/
def openBatch (client : Client) (policy : Policy) (slots : List Slot) : Making FrameReader := do
  let isWrite := slots.any Slot.hasWrite
  let payload ← client.framer.batch policy (slots.map fun slot => (slot.key, slot.action))
  let limits : Limits :=
    { deadline := policy.deadline (← ask .clock), scope := client.scope, isWrite }
  let id ← ask .drawId
  let stream ← client.stream .batchOperate (envelope id 1 payload policy isWrite) limits
  return { stream, limits, reporter := client.reporter }

/-- Sends a batch and reads the answer into its slots, which remain when it fails. -/
def exchangeBatch (client : Client) (policy : Policy) (slots : List Slot) :
    Flow (Except Fault Unit × Tally) := do
  match ← (client.openBatch policy slots).run with
  | .error fault => return (.error fault, { slots })
  | .ok reader =>
    let (result, state) ←
      (Reassembly.run (.identity slots.length)).run.run { reader, tally := { slots } }
    return (result, state.tally)

/-- Carries a batch out: whether every slot succeeded, and the slots with their outcomes. -/
def batch (client : Client) (policy : Policy) (slots : List Slot) :
    Flow (Except Fault Bool × List Slot) := do
  let slots := slots.map Slot.reset
  if slots.isEmpty then
    return (.ok true, slots)
  let (result, tally) ← client.exchangeBatch policy slots
  match result with
  | .ok () => return (.ok !tally.hasRowError, tally.slots)
  | .error fault => return (.error fault, tally.slots.map Slot.sweep)

end RecordGateway.Client

namespace RecordGateway

/-- A batch that failed as a whole, with its slots as the failure left them. -/
structure Batch.Failure where
  fault : Fault
  slots : List Slot

namespace Batch.Failure

def display (failure : Failure) : String :=
  let total := failure.slots.length
  failure.fault.display ++ s!" ({total - pendingCount failure.slots}/{total} rows answered)"

/-- The texts of the causes: the fault, and its own causes. -/
def causes (failure : Failure) : List String :=
  failure.fault.display :: failure.fault.causes

end Batch.Failure

namespace Client

open Batch (Slot Failure)

/-- Carries out a batch that the client makes up itself: its slots with their outcomes. -/
def answered (client : Client) (policy : Policy) (slots : List Slot) :
    ExceptT Failure Flow (List Slot) :=
  ExceptT.mk do
    let (result, slots) ← client.batch policy slots
    match result with
    | .ok _ => return .ok slots
    | .error fault => return .error { fault, slots }

def getMany (client : Client) (policy : Policy) (keys : List Key) (bins : Option (List String)) :
    ExceptT Failure Flow (List (Except Fault (Option Record))) := do
  let slots ← client.answered policy (keys.map fun key => Slot.read key bins)
  return slots.map Slot.result

/-- Reads many records without their bins. -/
def getHeadersMany (client : Client) (policy : Policy) (keys : List Key) :
    ExceptT Failure Flow (List (Except Fault (Option Record))) := do
  let slots ← client.answered policy (keys.map Slot.readHeader)
  return slots.map Slot.result

def existsMany (client : Client) (policy : Policy) (keys : List Key) :
    ExceptT Failure Flow (List (Except Fault Bool)) := do
  let headers ← client.getHeadersMany policy keys
  return headers.map fun header => header.map (·.isSome)

def deleteMany (client : Client) (policy : Policy) (keys : List Key) :
    ExceptT Failure Flow (List Slot) :=
  client.answered policy (keys.map Slot.delete)

/-- Runs a script on many records. -/
def executeMany (client : Client) (policy : Policy) (keys : List Key) (package function : String)
    (arguments : List Value) : ExceptT Failure Flow (List Slot) :=
  client.answered policy (keys.map fun key => Slot.udf key package function arguments)

end Client
end RecordGateway
