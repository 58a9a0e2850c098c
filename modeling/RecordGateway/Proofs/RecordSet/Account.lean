import RecordGateway.Proofs.RecordSet.Holdings

/-!
The account of a set. What has been delivered and what comes after the digests of the tracker are, in every
partition, the records that were due (`Accounted`). A round moves records from the one to the other, in
whatever order the rows of different partitions come and wherever it breaks off (`Accounted.fail`), and a
round that comes to its end closes only partitions after whose digest nothing comes (`Accounted.finish`).
-/

namespace RecordGateway.RecordSet

open RecordGateway.Partition (Tracker Ordered Distinct firstListed firstListed_of_ids ofDigest)

variable {holdings : Holdings} {ids : List Nat} {due : Nat → List DataRow} {delivered : List DataRow}
  {statuses : List Partition.Status} {rows : List RoundRow} {tracker : Tracker} {first : Nat}

/-! ### The rows of a round -/

/-- A status after rows. -/
def advance (rows : List RoundRow) (status : Partition.Status) : Partition.Status :=
  { status with
    digest := (digestsIn status.id (dataRows rows)).getLast?.or status.digest
    retry := status.retry || refuses status.id rows }

theorem advance_append (front back : List RoundRow) (status : Partition.Status) :
    advance (front ++ back) status = advance back (advance front status) := by
  simp only [advance, dataRows_append, digestsIn_append, List.getLast?_append, refuses,
    List.any_append, Option.or_assoc, Bool.or_assoc]

theorem advance_nil (status : Partition.Status) : advance [] status = status := by
  simp [advance, dataRows, digestsIn, refuses]

/-- A row looks one partition up and moves its status on, or leaves all statuses as they are. -/
theorem statuses_note_cases (tracker : Tracker) (row : RoundRow) :
    ((Round.note tracker row).statuses = tracker.statuses ∧ advance [row] = fun status => status) ∨
    ∃ id change, (Round.note tracker row).statuses = Tracker.updateById id change tracker.statuses ∧
      advance [row] = Tracker.changeAt id change := by
  cases row with
  | data key record =>
      cases hdigest : key.digest with
      | none =>
          refine .inl ⟨by rw [Round.note, hdigest]; rfl, ?_⟩
          funext status
          simp [advance, dataRows, RoundRow.data?, digestsIn, refuses, hdigest]
      | some digest =>
          refine .inr ⟨ofDigest digest, fun status => { status with digest := some digest }, ?_, ?_⟩
          · rw [Round.note, hdigest]
            rfl
          · funext status
            rw [Tracker.changeAt]
            by_cases hid : status.id = ofDigest digest
            · simp [advance, dataRows, RoundRow.data?, digestsIn, refuses, hdigest, hid]
            · simp [advance, dataRows, RoundRow.data?, digestsIn, refuses, hdigest, hid, Ne.symm hid]
  | partitionDone id code =>
      have hnone : dataRows [RoundRow.partitionDone id code] = [] := rfl
      rw [Round.note, Tracker.report]
      by_cases hcode : code = .ok
      · subst hcode
        refine .inl ⟨rfl, ?_⟩
        funext status
        simp [advance, hnone, digestsIn, refuses]
      · refine .inr ⟨id, fun status => { status with retry := true }, by rw [if_neg hcode], ?_⟩
        funext status
        rw [Tracker.changeAt]
        by_cases hid : status.id = id
        · simp [advance, hnone, digestsIn, refuses, hid, hcode]
        · have hother : (id == status.id) = false := beq_eq_false_iff_ne.mpr (Ne.symm hid)
          simp [advance, hnone, digestsIn, refuses, hid, hother]

theorem ids_note (tracker : Tracker) (row : RoundRow) :
    (Round.note tracker row).statuses.map (·.id) = tracker.statuses.map (·.id) := by
  cases row with
  | data key record => exact tracker.ids_deliver key.digest
  | partitionDone id code => exact tracker.ids_report id code

theorem statuses_note_from (h : Distinct tracker.statuses) (row : RoundRow) :
    (Round.note tracker row).statuses =
      tracker.statuses.map (Tracker.changeFrom (firstListed tracker.statuses) (advance [row])) := by
  rcases statuses_note_cases tracker row with ⟨hsame, hrow⟩ | ⟨id, change, hlookup, hrow⟩
  · rw [hsame, hrow, Tracker.changeFrom_self, List.map_id']
  · rw [hlookup, hrow, Tracker.updateById_eq_map_from h]

theorem changeFrom_advance_append (front back : List RoundRow) (status : Partition.Status) :
    Tracker.changeFrom first (advance back) (Tracker.changeFrom first (advance front) status) =
      Tracker.changeFrom first (advance (front ++ back)) status := by
  by_cases hfrom : first ≤ status.id
  · have hlater : first ≤ (advance front status).id := hfrom
    simp only [Tracker.changeFrom, if_pos hfrom, if_pos hlater]
    exact (advance_append front back status).symm
  · simp only [Tracker.changeFrom, if_neg hfrom]

/-- The tracker moves the statuses on by their own rows, but only those of the partitions that are found. -/
theorem statuses_foldl_note_from (h : Distinct tracker.statuses) (rows : List RoundRow) :
    (rows.foldl Round.note tracker).statuses =
      tracker.statuses.map (Tracker.changeFrom (firstListed tracker.statuses) (advance rows)) := by
  induction rows generalizing tracker with
  | nil =>
      have hsame : advance [] = fun status => status := funext advance_nil
      rw [hsame, Tracker.changeFrom_self, List.map_id']
      rfl
  | cons row rows ih =>
      have hids := ids_note tracker row
      rw [List.foldl_cons, ih (h.of_ids hids), firstListed_of_ids hids, statuses_note_from h,
        List.map_map]
      exact List.map_congr_left fun status _ => changeFrom_advance_append [row] rows status

/-- If the statuses come in order the tracker moves every one of them on. -/
theorem statuses_foldl_note (hordered : Ordered tracker.statuses) (rows : List RoundRow) :
    (rows.foldl Round.note tracker).statuses = tracker.statuses.map (advance rows) := by
  rw [statuses_foldl_note_from hordered.distinct]
  exact List.map_congr_left fun status hmem => if_pos (hordered.firstListed_le hmem)

/-! ### What a round asks for -/

theorem toNat_toUInt32 {id : Nat} (hrange : id < Partition.count) : id.toUInt32.toNat = id := by
  rw [Partition.count] at hrange
  simp only [Nat.toUInt32, UInt32.toNat_ofNat']
  omega

theorem requested_roundFilter {status : Partition.Status} (hrange : status.id < Partition.count)
    (retry : Bool) :
    holdings.requested
      { id := status.id.toUInt32, digest := status.digest.map (·.bytes), retry } =
        holdings.after status.id status.digest := by
  have hdigest : (status.digest.map (·.bytes)).bind Digest.ofBytes? = status.digest := by
    cases status.digest with
    | none => rfl
    | some digest => simp [Digest.ofBytes?, digest.length_eq]
  rw [Holdings.requested, toNat_toUInt32 hrange, hdigest]

/-- The status of a partition that is not done is among those that a round asks for. -/
theorem exists_asked {status : Partition.Status} (hmem : status ∈ tracker.statuses)
    (hopen : status.done = false) (hrange : status.id < Partition.count) :
    ∃ asked ∈ tracker.roundFilter.statuses, asked.id.toNat = status.id ∧
      holdings.requested asked = holdings.after status.id status.digest := by
  have hremains : status ∈ tracker.remaining := by
    simp [Tracker.remaining, hmem, hopen]
  exact ⟨_, List.mem_map_of_mem hremains, toNat_toUInt32 hrange, requested_roundFilter hrange _⟩

/-- A round asks for nothing but the partitions that are not done. -/
theorem exists_open {asked : Envelope.PartitionStatus}
    (hmem : asked ∈ tracker.roundFilter.statuses)
    (hrange : ∀ status ∈ tracker.statuses, status.id < Partition.count) :
    ∃ status ∈ tracker.statuses, status.done = false ∧ asked.id.toNat = status.id := by
  obtain ⟨status, hremains, rfl⟩ := List.mem_map.mp hmem
  obtain ⟨hstatus, hopen⟩ := List.mem_filter.mp hremains
  exact ⟨status, hstatus, by simpa using hopen, toNat_toUInt32 (hrange status hstatus)⟩

/-! ### Accounts -/

/-- The account of what is delivered and what is still to come of some partitions. -/
structure Accounted (holdings : Holdings) (ids : List Nat) (due : Nat → List DataRow)
    (delivered : List DataRow) (statuses : List Partition.Status) : Prop where
  listed : statuses.map (·.id) = ids
  ordered : Ordered statuses
  inRange : ∀ status ∈ statuses, status.id < Partition.count
  /-- Nothing is lost and nothing comes twice. -/
  balanced : ∀ status ∈ statuses,
    inPartition status.id delivered ++ holdings.after status.id status.digest = due status.id
  /-- Nothing more comes from a partition that is done. -/
  exhausted : ∀ status ∈ statuses, status.done = true → holdings.after status.id status.digest = []
  covered : ∀ row ∈ delivered, ∃ id ∈ ids, row.partition? = some id

/-- Rows go from what is to come to what is delivered. -/
theorem Accounted.move {moved : List DataRow} {change : Partition.Status → Partition.Status}
    (h : Accounted holdings ids due delivered statuses) (hid : ∀ status, (change status).id = status.id)
    (hmoved : ∀ status ∈ statuses,
      inPartition status.id moved ++ holdings.after status.id (change status).digest =
        holdings.after status.id status.digest)
    (hdone : ∀ status ∈ statuses, (change status).done = true →
      holdings.after status.id (change status).digest = [])
    (hcovered : ∀ row ∈ moved, ∃ id ∈ ids, row.partition? = some id) :
    Accounted holdings ids due (delivered ++ moved) (statuses.map change) := by
  constructor
  · rw [List.map_map, ← h.listed]
    exact List.map_congr_left fun status _ => hid status
  · exact h.ordered.map hid
  · rw [List.forall_mem_map]
    intro status hmem
    rw [hid]
    exact h.inRange status hmem
  · rw [List.forall_mem_map]
    intro status hmem
    rw [hid, inPartition_append, List.append_assoc, hmoved status hmem]
    exact h.balanced status hmem
  · rw [List.forall_mem_map]
    intro status hmem hread
    rw [hid]
    exact hdone status hmem hread
  · intro row hrow
    rcases List.mem_append.mp hrow with hrow | hrow
    · exact h.covered row hrow
    · exact hcovered row hrow

/-- The rows that a gateway sends are the next of their partitions; none is of a partition that is
done. -/
theorem Accounted.next (h : Accounted holdings ids due delivered tracker.statuses)
    (hserves : Serves holdings tracker.roundFilter rows) {status : Partition.Status}
    (hmem : status ∈ tracker.statuses) :
    inPartition status.id (dataRows rows) <+: holdings.after status.id status.digest := by
  cases hdone : status.done with
  | false =>
      obtain ⟨asked, hasked, hid, hrequested⟩ := exists_asked hmem hdone (h.inRange status hmem)
      have hnext := hserves.inOrder asked hasked
      rwa [hrequested, hid] at hnext
  | true =>
      -- A row of this partition would have been asked for, by a status that is not done.
      have hnone : inPartition status.id (dataRows rows) = [] := by
        rw [inPartition, List.filter_eq_nil_iff]
        intro row hrow hpartition
        obtain ⟨asked, hasked, hrowid⟩ := hserves.listed row hrow
        obtain ⟨other, hother, hopen, hid⟩ := exists_open hasked h.inRange
        have hsame : other.id = status.id := by
          rw [← hid, ← Option.some_inj, ← hrowid]
          simpa using hpartition
        obtain rfl := h.ordered.eq_of_id_eq hother hmem hsame
        rw [hdone] at hopen
        cases hopen
      rw [hnone]
      exact List.nil_prefix

/-- A status at the end of a round: its flag was cleared, the rows moved it on, and it was closed. -/
def passed (rows : List RoundRow) (close : Partition.Status → Partition.Status)
    (status : Partition.Status) : Partition.Status :=
  Tracker.changeOpen close
    (advance rows (Tracker.changeOpen (fun status => { status with retry := false }) status))

theorem statuses_round (hordered : Ordered tracker.statuses) (rows : List RoundRow)
    (close : Partition.Status → Partition.Status) :
    ((rows.foldl Round.note tracker.startRound).onRemaining close).statuses =
      tracker.statuses.map (passed rows close) := by
  have hstart : tracker.startRound.statuses =
      tracker.statuses.map (Tracker.changeOpen fun status => { status with retry := false }) := rfl
  have hbegun : Ordered tracker.startRound.statuses :=
    hstart ▸ hordered.map (Tracker.id_changeOpen fun _ => rfl)
  rw [Tracker.statuses_onRemaining, statuses_foldl_note hbegun, hstart, List.map_map, List.map_map]
  rfl

/-- A round keeps the account, whatever it does to the flags at its end; but it may close a partition
only if it has brought all of it. -/
theorem Accounted.round {close : Partition.Status → Partition.Status}
    (h : Accounted holdings ids due delivered tracker.statuses)
    (hserves : Serves holdings tracker.roundFilter rows)
    (hid : ∀ status, (close status).id = status.id)
    (hdigest : ∀ status, (close status).digest = status.digest)
    (hclosed : ∀ status ∈ tracker.statuses, status.done = false →
      (close (advance rows { status with retry := false })).done = true →
        inPartition status.id (dataRows rows) = holdings.after status.id status.digest) :
    Accounted holdings ids due (delivered ++ dataRows rows)
      ((rows.foldl Round.note tracker.startRound).onRemaining close).statuses := by
  have hmoved : ∀ status ∈ tracker.statuses,
      inPartition status.id (dataRows rows) ++
          holdings.after status.id (passed rows close status).digest =
        holdings.after status.id status.digest := by
    intro status hmem
    rw [passed, Tracker.digest_changeOpen hdigest]
    simp only [advance, Tracker.id_changeOpen, Tracker.digest_changeOpen, implies_true]
    exact Holdings.after_digestsIn (h.next hserves hmem)
  rw [statuses_round h.ordered]
  refine h.move ?_ hmoved ?_ ?_
  · intro status
    rw [passed, Tracker.id_changeOpen hid]
    simp only [advance, Tracker.id_changeOpen, implies_true]
  · intro status hmem hread
    have hbefore := hmoved status hmem
    cases hdone : status.done with
    | true =>
        rw [h.exhausted status hmem hdone] at hbefore
        exact (List.append_eq_nil_iff.mp hbefore).2
    | false =>
        have hread : (close (advance rows { status with retry := false })).done = true := by
          simpa [passed, Tracker.changeOpen, advance, hdone] using hread
        rw [← hclosed status hmem hdone hread] at hbefore
        exact List.append_right_eq_self.mp hbefore
  · intro row hrow
    obtain ⟨asked, hasked, hrowid⟩ := hserves.listed row hrow
    obtain ⟨status, hmem, -, hsame⟩ := exists_open hasked h.inRange
    rw [← h.listed]
    exact ⟨status.id, List.mem_map_of_mem hmem, by rw [hrowid, hsame]⟩

/-- A round that fails keeps the account with the rows that it has brought. -/
theorem Accounted.fail (h : Accounted holdings ids due delivered tracker.statuses)
    (hserves : Serves holdings tracker.roundFilter rows) :
    Accounted holdings ids due (delivered ++ dataRows rows)
      (rows.foldl Round.note tracker.startRound).failRound.statuses := by
  refine h.round hserves (fun _ => rfl) (fun _ => rfl) ?_
  intro status _ hopen hread
  have hdone : status.done = true := hread
  rw [hopen] at hdone
  cases hdone

/-- A round that comes to its end keeps the account: what was not refused it has brought in full. -/
theorem Accounted.finish (h : Accounted holdings ids due delivered tracker.statuses)
    (hserves : Serves holdings tracker.roundFilter rows)
    (hcompletes : Completes holdings tracker.roundFilter rows) :
    Accounted holdings ids due (delivered ++ dataRows rows)
      (rows.foldl Round.note tracker.startRound).finishRound.statuses := by
  refine h.round hserves (fun _ => rfl) (fun _ => rfl) ?_
  intro status hmem hopen hread
  have hkept : refuses status.id rows = false := by
    simpa [advance] using hread
  obtain ⟨asked, hasked, hid, hrequested⟩ := exists_asked hmem hopen (h.inRange status hmem)
  have hall := hcompletes asked hasked
  rw [hid, hrequested] at hall
  exact hall hkept

end RecordGateway.RecordSet
