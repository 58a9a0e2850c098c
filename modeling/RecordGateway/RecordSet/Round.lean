import RecordGateway.FrameReader
import RecordGateway.Partition.Tracker
import RecordGateway.Row.Outcome

/-!
Filling a record set. A round asks for every partition that is not done and puts each row on the
set's queue; a round that fails for a reason that may pass is followed by another. The last item of
the queue says how the set ended.
-/

namespace RecordGateway.RecordSet

inductive RoundRow where
  | data (key : Row.KeyEcho) (record : Record)
  /-- The end of a partition. -/
  | partitionDone (id : Nat) (code : ResultCode)
deriving Repr

/-- Reads one row; `none` is the row after the last. -/
def readRow : Row.Reader (Option RoundRow) := do
  let header ← Row.Header.read
  if header.isLast then
    if header.resultCode ≠ .ok then
      throw (.ofCode header.resultCode)
    return none
  if header.isPartitionDone then
    Row.skipKey header.fieldCount.toNat
    discard (Row.readRecord header)
    return some (.partitionDone header.generation.toNat header.resultCode)
  if header.resultCode ≠ .ok then
    throw (.ofCode header.resultCode)
  let (key, record) ← Row.readKeyed header
  return some (.data key record)

/-- How a round came to its end. -/
inductive RoundEnd where
  | finished
  | limitReached
  /-- Nobody reads the queue any more. -/
  | abandoned
deriving DecidableEq, Repr

/-- A round whose answer is being read. -/
structure Round where
  reader : FrameReader
  tracker : Partition.Tracker
deriving Repr

namespace Round

/-- An activity that reads a round; the progress remains when it fails. -/
abbrev Running := ExceptT Fault (StateT Round Flow)

def reading {α : Type} (activity : FrameReader.Reading α) : Running α :=
  ExceptT.mk fun state => do
    let (result, reader) ← activity.run.run state.reader
    return (result, { state with reader })

/-- Puts rows on the queue of a set and notes the progress; gives the end of the round if one of the
rows brings it about. -/
def deliver (set : Nat) : List RoundRow → Running (Option RoundEnd)
  | [] => return none
  | .partitionDone id code :: rest => do
    modify fun state => { state with tracker := state.tracker.report id code }
    deliver set rest
  | .data key record :: rest => do
    modify fun state => { state with tracker := state.tracker.deliver key.digest }
    let read ← ExceptT.lift (StateT.lift (Flow.query (.offer set (.row key.toKey record))))
    if !read then
      return some .abandoned
    if (← get).tracker.limitReached then
      return some .limitReached
    deliver set rest

/-- Reads groups until the round ends. Every group takes at least one byte, so `fuel` may be one
more than the number of bytes. -/
def readGroups (set : Nat) : Nat → Running RoundEnd
  | 0 => return .finished
  | fuel + 1 => do
    match ← reading FrameReader.readGroup with
    | none => return .finished
    | some body =>
      let (rows, ending) := Row.unfold readRow body.length { rest := body }
      match ← deliver set rows with
      | some roundEnd => return roundEnd
      | none =>
        match ending with
        | .error fault => throw fault
        | .ok true => return .finished
        | .ok false => readGroups set fuel

def run (set : Nat) : Running RoundEnd := do
  readGroups set ((← get).reader.pending + 1)

end Round

/-- How a record set is filled. -/
structure Producer where
  set : Nat
  deadline : Option Time
  reporter : Fault.Reporter
  maxRetries : Nat
  sleepBetweenRetries : Time
  /-- Asks for one round. -/
  openRound : Envelope.PartitionFilter → Nat → Flow (Except Fault FrameStream)

namespace Producer

/-- The limits of every wait of a round. -/
def limits (producer : Producer) : Limits where
  deadline := producer.deadline
  scope := .recordSet producer.set

/-- Whether another round may succeed after a fault. -/
def isPassing (fault : Fault) : Bool :=
  fault.kind == .serverUnavailable || fault.code == .partitionUnavailable

def round (producer : Producer) (tracker : Partition.Tracker)
    (filter : Envelope.PartitionFilter) :
    Flow (Except Fault RoundEnd × Partition.Tracker) := do
  match ← producer.openRound filter tracker.iteration with
  | .error fault => return (.error fault, tracker)
  | .ok stream =>
    let reader := { stream, limits := producer.limits, reporter := producer.reporter }
    let (result, state) ← (Round.run producer.set).run.run { reader, tracker }
    return (result, state.tracker)

/-- The fault of a set for which there are no rounds left. -/
def exhausted (tracker : Partition.Tracker) : Fault :=
  { Fault.ofCode .maxRetriesExceeded with
    message := some <|
      s!"{tracker.outstanding} partitions incomplete after {tracker.iteration} attempts"
    iteration := some tracker.iteration }

/-- Rounds until the set ends, and its last item; there is none if nobody reads it. -/
def rounds (producer : Producer) : Nat → Partition.Tracker → Flow (Option Item)
  | retries, tracker => do
    let filter := tracker.roundFilter
    let tracker := tracker.startRound
    if ← Flow.query (.isCancelled (.recordSet producer.set)) then
      return some (.failed .callCancelled)
    let (result, tracker) ← producer.round tracker filter
    let goOn (tracker : Partition.Tracker) : Flow (Option Item) := do
      if tracker.isComplete then
        return some (.finished tracker.resumeFilter)
      match retries with
      | 0 => return some (.failed (exhausted tracker))
      | retries + 1 => do
        if producer.sleepBetweenRetries ≠ 0 then
          Flow.sleep producer.sleepBetweenRetries
        producer.rounds retries tracker
    match result with
    | .ok .abandoned => return none
    | .ok .limitReached => return some (.finished tracker.resumeFilter)
    | .ok .finished => goOn tracker.finishRound
    | .error fault =>
      if isPassing fault then goOn tracker.failRound
      else return some (.failed { fault with iteration := some tracker.iteration })

/-- Fills the set: all its rows, and then its last item. -/
def run (producer : Producer) (tracker : Partition.Tracker) : Flow Unit := do
  match ← producer.rounds producer.maxRetries tracker with
  | none => return
  | some item => discard (Flow.query (.offer producer.set item))

end Producer
end RecordGateway.RecordSet
