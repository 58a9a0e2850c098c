import RecordGateway.Partition

/-!
Progress over several rounds. A round asks for every partition that is not done, after the last
record read of each. What the round reports and how it ends decides which partitions are done.
-/

namespace RecordGateway.Partition

/-- How far a query or a scan has come. -/
structure Tracker where
  statuses : List Status
  maxRecords : Nat
  delivered : Nat := 0
  iteration : Nat := 0
deriving DecidableEq, Repr

namespace Tracker

/-- The partitions of a range that begins at `first`, of which the first goes on after `digest`. -/
def freshStatuses (first count : Nat) (digest : Option Digest) : List Status :=
  match (List.range' first count).map fun id => { id : Status } with
  | [] => []
  | status :: rest => { status with digest } :: rest

/-- The progress of a run that has not begun; refuses a range that does not exist. -/
def ofFilter (filter : Filter) (maxRecords : Nat) : Except Fault Tracker :=
  if filter.isValid then
    let statuses := filter.statuses.getD (freshStatuses filter.first filter.count filter.digest)
    .ok { statuses, maxRecords }
  else
    .error (.client s!"invalid partition range {filter.first}+{filter.count}")

/-- The partitions that are not done. -/
def remaining (tracker : Tracker) : List Status :=
  tracker.statuses.filter fun status => !status.done

/-- The number of partitions that are not done. -/
def outstanding (tracker : Tracker) : Nat :=
  tracker.remaining.length

/-- What the next round asks for. -/
def roundFilter (tracker : Tracker) : Envelope.PartitionFilter :=
  let retry := 0 < tracker.iteration
  let statuses := tracker.remaining.map fun status =>
    { id := status.id.toUInt32, digest := status.digest.map (·.bytes), retry
      : Envelope.PartitionStatus }
  { first := (statuses.head?.map (·.id)).getD 0
    count := statuses.length.toUInt32
    statuses, retry }

/-- Applies `change` to the partitions that are not done. -/
def onRemaining (change : Status → Status) (tracker : Tracker) : Tracker :=
  { tracker with
    statuses := tracker.statuses.map fun status => if status.done then status else change status }

/-- Begins a round: no partition has to be asked for again until it is reported. -/
def startRound (tracker : Tracker) : Tracker :=
  { tracker.onRemaining fun status => { status with retry := false } with
    iteration := tracker.iteration + 1 }

/-- Applies `change` to the first partition with a given id. -/
def updateFirst (id : Nat) (change : Status → Status) : List Status → List Status
  | [] => []
  | status :: rest =>
    if status.id = id then change status :: rest else status :: updateFirst id change rest

/-- Applies `change` to the partition with a given id. In a list of consecutive ids its place is the
distance from the first id. An id below the first one is not looked for. -/
def updateById (id : Nat) (change : Status → Status) (statuses : List Status) : List Status :=
  match statuses with
  | [] => []
  | first :: _ =>
    if id < first.id then statuses
    else if (statuses[id - first.id]?.map (·.id)) = some id then
      statuses.modify (id - first.id) change
    else updateFirst id change statuses

/-- The progress after one more record. -/
def deliver (tracker : Tracker) (digest : Option Digest) : Tracker :=
  let statuses := match digest with
    | some digest =>
      updateById (ofDigest digest) (fun status => { status with digest := some digest })
        tracker.statuses
    | none => tracker.statuses
  { tracker with statuses, delivered := tracker.delivered + 1 }

/-- Whether as many records have been delivered as were asked for. -/
def limitReached (tracker : Tracker) : Bool :=
  0 < tracker.maxRecords ∧ tracker.maxRecords ≤ tracker.delivered

/-- The progress after a report on a partition; a code other than success asks for it again. -/
def report (tracker : Tracker) (id : Nat) (code : ResultCode) : Tracker :=
  if code = .ok then tracker
  else
    { tracker with
      statuses := updateById id (fun status => { status with retry := true }) tracker.statuses }

/-- Ends a round that failed: all that is not done has to be asked for again. -/
def failRound (tracker : Tracker) : Tracker :=
  tracker.onRemaining fun status => { status with retry := true }

/-- Ends a round that came to its end: all that need not be asked for again is done. -/
def finishRound (tracker : Tracker) : Tracker :=
  tracker.onRemaining fun status => { status with done := !status.retry }

/-- Whether there is nothing left to do. -/
def isComplete (tracker : Tracker) : Bool :=
  tracker.statuses.all (·.done) || tracker.limitReached

/-- The filter with which a later run goes on where this one stopped. -/
def resumeFilter (tracker : Tracker) : Filter where
  first := (tracker.statuses.head?.map (·.id)).getD 0
  count := tracker.statuses.length
  statuses := some tracker.statuses

end Tracker
end RecordGateway.Partition
