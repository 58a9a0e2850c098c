import RecordGateway.Proofs.RecordSet.Round

/-!
What a gateway holds and what it may answer. A round asks for partitions, each after a digest or from its
beginning, and an honest gateway sends for each of them records in their order, from there on
(`Serves`), and all of them if it says that it has (`Completes`). What it sends moves the digest of the
partition on, so that what was sent and what comes after the digest are always the same records
(`Holdings.after_digestsIn`).
-/

namespace RecordGateway.RecordSet

open RecordGateway.Partition (ofDigest)

/-- The partition to which the digest of a row maps. -/
def DataRow.partition? (row : DataRow) : Option Nat :=
  row.1.digest.map ofDigest

def inPartition (id : Nat) (rows : List DataRow) : List DataRow :=
  rows.filter fun row => row.partition? == some id

def digestsIn (id : Nat) (rows : List DataRow) : List Digest :=
  (rows.filterMap fun row => row.1.digest).filter fun digest => ofDigest digest == id

/-- What a gateway holds: the records of each partition in their order, each under a digest of its own. -/
structure Holdings where
  records : Nat → List DataRow
  /-- How many records of its partition do not come after a digest. -/
  rank : Digest → Nat
  placed : ∀ id index row, (records id)[index]? = some row →
    ∃ digest, row.1.digest = some digest ∧ ofDigest digest = id ∧ rank digest = index + 1

/-- The records of a partition after a digest; all of them if there is none. -/
def Holdings.after (holdings : Holdings) (id : Nat) : Option Digest → List DataRow
  | none => holdings.records id
  | some digest => (holdings.records id).drop (holdings.rank digest)

variable {holdings : Holdings} {id : Nat} {rows : List DataRow}

@[simp] theorem inPartition_append (id : Nat) (front back : List DataRow) :
    inPartition id (front ++ back) = inPartition id front ++ inPartition id back :=
  List.filter_append ..

@[simp] theorem digestsIn_append (id : Nat) (front back : List DataRow) :
    digestsIn id (front ++ back) = digestsIn id front ++ digestsIn id back := by
  rw [digestsIn, List.filterMap_append, List.filter_append]
  rfl

theorem digestsIn_inPartition (id : Nat) (rows : List DataRow) :
    digestsIn id (inPartition id rows) = digestsIn id rows := by
  induction rows with
  | nil => rfl
  | cons row rows ih =>
      rw [← List.singleton_append, inPartition_append, digestsIn_append, digestsIn_append, ih]
      congr 1
      cases hdigest : row.1.digest with
      | none => simp [digestsIn, inPartition, DataRow.partition?, hdigest]
      | some digest =>
          by_cases hid : ofDigest digest = id
          · simp [digestsIn, inPartition, DataRow.partition?, hdigest, hid]
          · simp [digestsIn, inPartition, DataRow.partition?, hdigest, hid]

theorem Holdings.after_eq_drop (holdings : Holdings) (id : Nat) (start : Option Digest) :
    ∃ passed, holdings.after id start = (holdings.records id).drop passed := by
  cases start with
  | none => exact ⟨0, rfl⟩
  | some digest => exact ⟨_, rfl⟩

/-- The records that come after the last of some are those that come after all of them. -/
theorem Holdings.after_append {start : Option Digest} {front rest : List DataRow}
    (hstart : holdings.after id start = front ++ rest) :
    holdings.after id ((digestsIn id front).getLast?.or start) = rest := by
  rcases List.eq_nil_or_concat front with rfl | ⟨before, row, rfl⟩
  · exact hstart
  · -- Only the last of them counts: its rank is the number of records up to and with it.
    obtain ⟨passed, hpassed⟩ := holdings.after_eq_drop id start
    rw [hpassed, List.concat_eq_append, List.append_assoc] at hstart
    have hrow : (holdings.records id)[passed + before.length]? = some row := by
      rw [← List.getElem?_drop, hstart, List.getElem?_append_right (Nat.le_refl _), Nat.sub_self]
      rfl
    obtain ⟨digest, hdigest, hid, hrank⟩ := holdings.placed _ _ _ hrow
    have hlast : (digestsIn id (before.concat row)).getLast? = some digest := by
      rw [List.concat_eq_append, digestsIn_append, List.getLast?_append]
      simp [digestsIn, hdigest, hid]
    rw [hlast]
    change (holdings.records id).drop (holdings.rank digest) = rest
    rw [hrank, Nat.add_assoc, ← List.drop_drop, hstart, ← List.drop_drop, List.drop_left]
    rfl

/-- Rows of a partition that come next, and what comes after the last of them. -/
theorem Holdings.after_digestsIn {start : Option Digest}
    (hnext : inPartition id rows <+: holdings.after id start) :
    inPartition id rows ++ holdings.after id ((digestsIn id rows).getLast?.or start) =
      holdings.after id start := by
  obtain ⟨rest, hrest⟩ := hnext
  rw [← digestsIn_inPartition, Holdings.after_append hrest.symm, hrest]

/-! ### Honest answers -/

/-- Whether the end of a partition is marked with a code other than success. -/
def refuses (id : Nat) (rows : List RoundRow) : Bool :=
  rows.any fun row =>
    match row with
    | .data .. => false
    | .partitionDone other code => other == id && code != .ok

/-- The records that are asked for of one partition. -/
def Holdings.requested (holdings : Holdings) (status : Envelope.PartitionStatus) : List DataRow :=
  holdings.after status.id.toNat (status.digest.bind Digest.ofBytes?)

/-- The rows are of the partitions that are asked for, and of each the next in order. -/
structure Serves (holdings : Holdings) (filter : Envelope.PartitionFilter) (rows : List RoundRow) :
    Prop where
  listed : ∀ row ∈ dataRows rows, ∃ status ∈ filter.statuses,
    row.partition? = some status.id.toNat
  inOrder : ∀ status ∈ filter.statuses,
    inPartition status.id.toNat (dataRows rows) <+: holdings.requested status

/-- The rows are all that is asked for, but for the partitions that are refused. -/
def Completes (holdings : Holdings) (filter : Envelope.PartitionFilter) (rows : List RoundRow) :
    Prop :=
  ∀ status ∈ filter.statuses, refuses status.id.toNat rows = false →
    inPartition status.id.toNat (dataRows rows) = holdings.requested status

/-- An answer of a gateway that sends what is asked for, as far as it comes, and says that this is all
only if it is. It may break off anywhere. -/
structure Honest (holdings : Holdings) (filter : Envelope.PartitionFilter) (stream : FrameStream) :
    Prop where
  serves : Serves holdings filter (Row.harvest readRow (FrameReader.payload stream.arrivals)).rows
  completes : Round.Graceful stream.arrivals (FrameReader.payload stream.arrivals) →
    Completes holdings filter (Row.harvest readRow (FrameReader.payload stream.arrivals)).rows

theorem Honest.of_harvest {filter : Envelope.PartitionFilter} {stream : FrameStream}
    {rows : List RoundRow} {ending : Except Fault Bool} {rest : Bytes}
    (hharvest : Row.harvest readRow (FrameReader.payload stream.arrivals) = { rows, ending, rest })
    (hserves : Serves holdings filter rows)
    (hcompletes : Round.Graceful stream.arrivals (FrameReader.payload stream.arrivals) →
      Completes holdings filter rows) : Honest holdings filter stream := by
  constructor
  · rw [hharvest]
    exact hserves
  · rw [hharvest]
    exact hcompletes

theorem inPartition_mono {front all : List DataRow} (hfront : front <+: all) (id : Nat) :
    inPartition id front <+: inPartition id all :=
  hfront.filter _

theorem Serves.of_prefix {filter : Envelope.PartitionFilter} {front all : List RoundRow}
    (hfront : front <+: all) (h : Serves holdings filter all) : Serves holdings filter front := by
  have hdata : dataRows front <+: dataRows all := hfront.filterMap _
  constructor
  · exact fun row hmem => h.listed row (hdata.subset hmem)
  · exact fun status hmem => (inPartition_mono hdata _).trans (h.inOrder status hmem)

end RecordGateway.RecordSet
