import RecordGateway.Client
import RecordGateway.RecordSet.Round
import RecordGateway.Statement

/-!
Queries and scans. Both are described by a request that every round repeats, with the partitions
that the round asks for.
-/

namespace RecordGateway.Client

/-- A record set that is to be filled: how, and how many rows its queue holds. -/
structure Stream where
  producer : RecordSet.Producer
  tracker : Partition.Tracker
  capacity : Nat

/-- A stream of the set with the given number, whose rounds repeat a request. -/
def ofRequest (client : Client) (set : Nat) (method : Method) (policy : Policy)
    (queueSize : Option Nat) (tracker : Partition.Tracker) (now : Time)
    (request : Envelope.PartitionFilter → UInt32 → Envelope.Request) : Stream :=
  let limits : Limits := { deadline := policy.deadline now, scope := .recordSet set }
  let producer : RecordSet.Producer := {
    set
    deadline := limits.deadline
    reporter := client.reporter
    maxRetries := policy.maxRetries
    sleepBetweenRetries := policy.sleepBetweenRetries
    openRound := fun filter iteration =>
      (client.stream method (request filter iteration.toUInt32) limits).run }
  { producer, tracker, capacity := max 1 (queueSize.getD client.config.queueCapacity) }

def query (client : Client) (set : Nat) (policy : QueryPolicy) (statement : Statement)
    (filter : Partition.Filter) : Making Stream := do
  let tracker ← Partition.Tracker.ofFilter filter statement.maxRecords.toNat
  let message ← statement.message client.framer
  let id ← ask .drawId
  let now ← ask .clock
  return client.ofRequest set .query policy.base policy.queueSize tracker now
    fun partitions iteration =>
      { id, iteration
        query := some
          { policy := some policy.message, statement := some message, partitions } }

def scan (client : Client) (set : Nat) (policy : ScanPolicy) (ns setName : String)
    (bins : List String) (filter : Partition.Filter) : Making Stream := do
  let tracker ← Partition.Tracker.ofFilter filter policy.maxRecords.toNat
  let id ← ask .drawId
  let now ← ask .clock
  return client.ofRequest set .scan policy.base policy.queueSize tracker now
    fun partitions iteration =>
      { id, iteration
        scan := some { policy := some policy.message, ns, set := setName, bins, partitions } }

end RecordGateway.Client
