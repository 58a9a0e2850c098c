import RecordGateway.Envelope.Request
import RecordGateway.Fault
import RecordGateway.Record

/-!
Partitions. Every record belongs to one of 4096 partitions, which its digest names, and a query or a
scan covers a range of them. A filter that comes from an earlier run says for every partition where
to go on.
-/

namespace RecordGateway

namespace Partition

def count : Nat := 4096

/-- The partition of a digest: the lowest twelve bits of its first two bytes, the first byte being
the lower. -/
def ofDigest (digest : Digest) : Nat :=
  (BigEndian.decode (digest.bytes.take 2).reverse) % count

/-- How far a partition has been read. -/
structure Status where
  id : Nat
  /-- The last record read, after which to go on. -/
  digest : Option Digest := none
  /-- Whether the partition has to be asked for again. -/
  retry : Bool := true
  /-- Whether all of the partition has been read. -/
  done : Bool := false
deriving DecidableEq, Repr

/-- Which partitions a query or a scan covers, and where to go on inside them. -/
structure Filter where
  first : Nat
  count : Nat
  digest : Option Digest := none
  statuses : Option (List Status) := none
deriving DecidableEq, Repr

namespace Filter

/-- A range of partitions from the beginning of each. -/
def range (first count : Nat) : Filter :=
  { first, count }

def all : Filter :=
  range 0 Partition.count

def one (id : Nat) : Filter :=
  range id 1

/-- The partition of a digest, after that digest. -/
def after (digest : Digest) : Filter :=
  { first := ofDigest digest, count := 1, digest := some digest }

/-- Whether every partition has been read, of a filter that comes from an earlier run. -/
def isDone (filter : Filter) : Bool :=
  filter.statuses.any fun statuses => statuses.all (·.done)

/-- Whether the filter names a range of partitions that exist. -/
def isValid (filter : Filter) : Bool :=
  filter.count ≠ 0 ∧ filter.first < Partition.count
    ∧ filter.first + filter.count ≤ Partition.count

end Filter
end Partition
end RecordGateway
