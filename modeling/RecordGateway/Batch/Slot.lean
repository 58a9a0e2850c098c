import RecordGateway.Batch.Action
import RecordGateway.Row.Outcome

/-!
Slots: what a batch asks of one record, and the outcome once there is one. A slot takes the first
row that answers it. The result code `noResponse` stands for a slot without an outcome.
-/

namespace RecordGateway.Batch

structure Slot where
  key : Key
  action : Action
  record : Option Record := none
  code : ResultCode := .noResponse
  inDoubt : Bool := false
deriving Repr

namespace Slot

/-- A slot that reads bins of a record, or all of them. -/
def read (key : Key) (bins : Option (List String)) : Slot :=
  { key, action := .read bins [] false }

/-- A slot that reads a record without its bins. -/
def readHeader (key : Key) : Slot :=
  { key, action := .read none [] true }

/-- A slot that carries out operations that read. -/
def readWith (key : Key) (operations : List Operation) : Slot :=
  { key, action := .read none operations false }

/-- A slot that carries out operations. -/
def write (key : Key) (operations : List Operation) : Slot :=
  { key, action := .write operations }

/-- A slot that deletes a record. -/
def delete (key : Key) : Slot :=
  { key, action := .delete }

/-- A slot that runs a script on a record. -/
def udf (key : Key) (package function : String) (arguments : List Value) : Slot :=
  { key, action := .udf package function arguments }

/-- Whether the slot can change its record. -/
def hasWrite (slot : Slot) : Bool :=
  slot.action.isWrite

def reset (slot : Slot) : Slot :=
  { slot with record := none, code := .noResponse, inDoubt := false }

def isOk (slot : Slot) : Bool :=
  slot.code == .ok

/-- Whether the slot has no outcome. -/
def isPending (slot : Slot) : Bool :=
  slot.code == .noResponse

/-- What a slot reports that did not succeed. A reader takes a missing record for an answer. -/
def fault? (slot : Slot) : Option Fault :=
  if slot.code = .ok then none
  else if slot.code = .keyNotFound ∧ !slot.hasWrite then none
  else if slot.code = .udfBadResponse then
    let fault := (slot.record >>= Udf.failure?).getD (.ofCode .udfBadResponse)
    some { fault with inDoubt := slot.inDoubt }
  else
    some { Fault.ofCode slot.code with inDoubt := slot.inDoubt }

/-- The record that a slot read, its absence, or a fault. -/
def result (slot : Slot) : Except Fault (Option Record) :=
  match slot.fault? with
  | some fault => .error fault
  | none => .ok slot.record

/-- The outcome of a slot that a row answers, and whether it is an error. A failed script keeps the
record in which it reports; a timeout of a write leaves it in doubt. -/
def answer (slot : Slot) (header : Row.Header) (record : Record) : Slot × Bool :=
  let code := header.resultCode
  if code = .ok then
    ({ slot with record := some record, code := .ok }, false)
  else if code = .keyNotFound ∧ !slot.hasWrite then
    ({ slot with record := none, code }, false)
  else if code = .udfBadResponse ∧ (record.get? Udf.failureBin).isSome then
    ({ slot with record := some record, code, inDoubt := false }, true)
  else
    ({ slot with code, inDoubt := slot.hasWrite && code == .timeout }, true)

/-- After a broken answer a slot without an outcome is in doubt exactly if it can have written. -/
def sweep (slot : Slot) : Slot :=
  if slot.isPending then { slot with inDoubt := slot.hasWrite } else slot

end Slot

/-- The number of slots without an outcome. -/
def pendingCount (slots : List Slot) : Nat :=
  slots.countP Slot.isPending

/-- For each position of a request the slot that stands there. -/
structure Plan where
  offsets : List Nat
deriving DecidableEq, Repr

namespace Plan

/-- The plan of a request that lists all slots in order. -/
def identity (count : Nat) : Plan :=
  ⟨List.range count⟩

def slot (plan : Plan) (index : UInt32) : Except Fault Nat :=
  match plan.offsets[index.toNat]? with
  | some slot => .ok slot
  | none => .error (.parse s!"batch row index {index} outside plan of {plan.offsets.length}")

end Plan
end RecordGateway.Batch
