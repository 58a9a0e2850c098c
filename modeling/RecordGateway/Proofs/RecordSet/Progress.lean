import Mathlib.Data.List.Basic
import RecordGateway.Proofs.RecordSet.Account

/-!
Progress from round to round. A tracker that arises from a filter (`Arises`) has the statuses of consecutive
partitions, each with a digest of its own partition if it has one (`WellFormed`). Every step of a round
changes the statuses one by one: the id stays, the digest is the last one delivered, and a partition that is
done stays done (`Moved`). So after any rounds, and in the middle of one, the tracker is the one that the
run began with, moved on by the rows (`Progressed`), and which partitions a round leaves is decided by the marks of
that round alone (`openIds_finishRound`).
-/

namespace RecordGateway

/-- The filters that say nothing of an earlier run. -/
inductive Partition.Filter.Fresh : Filter → Prop where
  | all : Fresh .all
  | one (id : Nat) : Fresh (.one id)
  | range (first count : Nat) : Fresh (.range first count)
  | after (digest : Digest) : Fresh (.after digest)

namespace RecordSet

open RecordGateway.Partition (Tracker Filter Ordered ofDigest)

variable {origin tracker next : Tracker} {statuses : List Partition.Status}
  {rows more : List RoundRow} {change : Partition.Status → Partition.Status} {filter : Filter} {maxRecords : Nat}

/-! ### Where a run may begin -/

/-- The trackers that a run may come to, or begin with: those of a filter without a past, those that go on
where another one stopped, at whatever moment that was, and what the steps of a round make of them. -/
inductive Arises : Tracker → Prop where
  | fresh (filter : Filter) (maxRecords : Nat) (tracker : Tracker) :
      filter.Fresh → Tracker.ofFilter filter maxRecords = .ok tracker → Arises tracker
  | resumed (earlier : Tracker) (maxRecords : Nat) (tracker : Tracker) :
      Arises earlier → Tracker.ofFilter earlier.resumeFilter maxRecords = .ok tracker →
        Arises tracker
  | started (tracker : Tracker) : Arises tracker → Arises tracker.startRound
  | noted (tracker : Tracker) (row : RoundRow) : Arises tracker → Arises (Round.note tracker row)
  | finished (tracker : Tracker) : Arises tracker → Arises tracker.finishRound
  | failed (tracker : Tracker) : Arises tracker → Arises tracker.failRound

/-- The statuses of a range of partitions, and every digest in the partition that has it. -/
structure WellFormed (statuses : List Partition.Status) : Prop where
  consecutive : ∃ first count, statuses.map (·.id) = List.range' first count ∧ 0 < count ∧
    first + count ≤ Partition.count
  placed : ∀ status ∈ statuses, ∀ digest, status.digest = some digest → ofDigest digest = status.id

theorem WellFormed.ordered (h : WellFormed statuses) : Ordered statuses := by
  obtain ⟨first, count, hids, -⟩ := h.consecutive
  exact Tracker.ordered_of_ids hids

theorem WellFormed.inRange (h : WellFormed statuses) {status : Partition.Status} (hmem : status ∈ statuses) :
    status.id < Partition.count := by
  obtain ⟨first, count, hids, -, hlimit⟩ := h.consecutive
  have hid : status.id ∈ List.range' first count := hids ▸ List.mem_map_of_mem hmem
  rw [List.mem_range'_1] at hid
  omega

theorem WellFormed.length_le (h : WellFormed statuses) : statuses.length ≤ Partition.count := by
  obtain ⟨first, count, hids, -, hlimit⟩ := h.consecutive
  have hlength := congrArg List.length hids
  rw [List.length_map, List.length_range'] at hlength
  omega

theorem WellFormed.map (h : WellFormed statuses) (hid : ∀ status, (change status).id = status.id)
    (hplaced : ∀ status ∈ statuses, ∀ digest, (change status).digest = some digest →
      ofDigest digest = status.id) : WellFormed (statuses.map change) := by
  constructor
  · obtain ⟨first, count, hids, hrange⟩ := h.consecutive
    refine ⟨first, count, ?_, hrange⟩
    rw [List.map_map, ← hids]
    exact List.map_congr_left fun status _ => hid status
  · rw [List.forall_mem_map]
    intro status hmem
    rw [hid]
    exact hplaced status hmem

theorem wellFormed_freshStatuses {first count : Nat} {digest : Option Digest} (hcount : 0 < count)
    (hlimit : first + count ≤ Partition.count)
    (hplaced : ∀ after, digest = some after → ofDigest after = first) :
    WellFormed (Tracker.freshStatuses first count digest) := by
  refine ⟨⟨first, count, Tracker.ids_freshStatuses .., hcount, hlimit⟩, ?_⟩
  intro status hmem after hafter
  rw [(Tracker.mem_freshStatuses hmem).1] at hafter
  split at hafter
  · next hfirst => rw [hfirst, hplaced after hafter]
  · cases hafter

/-- A filter without a past gives a tracker whose only digest is that of its first partition. -/
theorem wellFormed_ofFilter (hfresh : filter.Fresh)
    (h : Tracker.ofFilter filter maxRecords = .ok tracker) : WellFormed tracker.statuses := by
  have hnone : filter.statuses = none := by cases hfresh <;> rfl
  have hdigest : ∀ digest, filter.digest = some digest → ofDigest digest = filter.first := by
    cases hfresh with
    | after digest => rintro _ ⟨⟩; rfl
    | _ => rintro _ ⟨⟩
  rw [Tracker.ofFilter] at h
  split at h
  · next hvalid =>
      obtain rfl := Except.ok.inj h
      rw [Filter.isValid, decide_eq_true_iff] at hvalid
      rw [hnone]
      exact wellFormed_freshStatuses (Nat.pos_of_ne_zero hvalid.1) hvalid.2.2 hdigest
  · cases h

/-- A run can always go on where another one stopped: with the same statuses and a count of its own. -/
theorem ofFilter_resumeFilter (h : WellFormed tracker.statuses) (maxRecords : Nat) :
    Tracker.ofFilter tracker.resumeFilter maxRecords =
      .ok { statuses := tracker.statuses, maxRecords } := by
  obtain ⟨first, count, hids, hcount, hlimit⟩ := h.consecutive
  have hlength : tracker.statuses.length = count := by
    rw [← List.length_map, hids, List.length_range']
  have hhead : (tracker.statuses.head?.map (·.id)).getD 0 = first := by
    rw [← List.head?_map, hids, List.head?_range', if_neg (by omega)]
    rfl
  have hvalid : tracker.resumeFilter.isValid = true := by
    rw [Filter.isValid, decide_eq_true_iff, Tracker.resumeFilter, hhead, hlength]
    dsimp only
    omega
  rw [Tracker.ofFilter, if_pos hvalid]
  rfl

/-! ### What one step does to a status -/

/-- The change of a status that rows make and the flags of a round allow: the id stays, the digest is the
last one delivered, and a partition that is done stays done. -/
structure Moves (rows : List RoundRow) (change : Partition.Status → Partition.Status) : Prop where
  id_eq : ∀ status, (change status).id = status.id
  digest_eq : ∀ status, (change status).digest =
    (digestsIn status.id (dataRows rows)).getLast?.or status.digest
  done_of_done : ∀ status, status.done = true → (change status).done = true

/-- The statuses of a tracker after one step of a round. -/
def Moved (rows : List RoundRow) (tracker next : Tracker) : Prop :=
  ∃ change, Moves rows change ∧ next.statuses = tracker.statuses.map change

theorem moved_onRemaining (hid : ∀ status, (change status).id = status.id)
    (hdigest : ∀ status, (change status).digest = status.digest) :
    Moved [] tracker (tracker.onRemaining change) := by
  refine ⟨Tracker.changeOpen change, ⟨Tracker.id_changeOpen hid, ?_, ?_⟩, rfl⟩
  · exact Tracker.digest_changeOpen hdigest
  · intro status hdone
    rw [Tracker.changeOpen, if_pos hdone]
    exact hdone

theorem moved_startRound (tracker : Tracker) : Moved [] tracker tracker.startRound :=
  @moved_onRemaining tracker (fun status => { status with retry := false }) (fun _ => rfl)
    fun _ => rfl

theorem moved_foldl_note (hordered : Ordered tracker.statuses) (rows : List RoundRow) :
    Moved rows tracker (rows.foldl Round.note tracker) :=
  ⟨advance rows, ⟨fun _ => rfl, fun _ => rfl, fun _ => id⟩, statuses_foldl_note hordered rows⟩

theorem moved_finishRound (tracker : Tracker) : Moved [] tracker tracker.finishRound :=
  moved_onRemaining (fun _ => rfl) fun _ => rfl

theorem moved_failRound (tracker : Tracker) : Moved [] tracker tracker.failRound :=
  moved_onRemaining (fun _ => rfl) fun _ => rfl

theorem Moved.wellFormed (h : Moved rows tracker next) (hformed : WellFormed tracker.statuses) :
    WellFormed next.statuses := by
  obtain ⟨change, hmoves, hnext⟩ := h
  rw [hnext]
  refine hformed.map hmoves.id_eq ?_
  intro status hmem digest hdigest
  rw [hmoves.digest_eq, Option.or_eq_some_iff] at hdigest
  rcases hdigest with hlast | ⟨-, hbefore⟩
  · have hin := List.mem_filter.mp (List.mem_of_getLast? hlast)
    exact of_decide_eq_true hin.2
  · exact hformed.placed status hmem digest hbefore

theorem Arises.wellFormed (h : Arises tracker) : WellFormed tracker.statuses := by
  induction h with
  | fresh filter maxRecords tracker hfresh hmade => exact wellFormed_ofFilter hfresh hmade
  | resumed earlier maxRecords tracker _ hmade ih =>
      rw [ofFilter_resumeFilter ih] at hmade
      obtain rfl := Except.ok.inj hmade
      exact ih
  | started tracker _ ih => exact (moved_startRound tracker).wellFormed ih
  | noted tracker row _ ih => exact (moved_foldl_note ih.ordered [row]).wellFormed ih
  | finished tracker _ ih => exact (moved_finishRound tracker).wellFormed ih
  | failed tracker _ ih => exact (moved_failRound tracker).wellFormed ih

/-! ### Partitions that are not done -/

def openIds (tracker : Tracker) : List Nat :=
  tracker.remaining.map (·.id)

theorem openIds_of_map (hnext : next.statuses = tracker.statuses.map change)
    (hid : ∀ status, (change status).id = status.id) :
    openIds next = (tracker.statuses.filter fun status => !(change status).done).map (·.id) := by
  rw [openIds, Tracker.remaining, hnext, List.filter_map, List.map_map]
  exact List.map_congr_left fun status _ => hid status

theorem openIds_eq (hnext : next.statuses = tracker.statuses.map change)
    (hid : ∀ status, (change status).id = status.id)
    (hdone : ∀ status, (change status).done = status.done) : openIds next = openIds tracker := by
  rw [openIds_of_map hnext hid]
  simp only [hdone]
  rfl

theorem openIds_onRemaining (hid : ∀ status, (change status).id = status.id)
    (hdone : ∀ status, (change status).done = status.done) :
    openIds (tracker.onRemaining change) = openIds tracker := by
  refine openIds_eq (Tracker.statuses_onRemaining change tracker) (Tracker.id_changeOpen hid) ?_
  intro status
  rw [Tracker.changeOpen]
  split
  · rfl
  · exact hdone status

theorem openIds_failRound (tracker : Tracker) : openIds tracker.failRound = openIds tracker :=
  openIds_onRemaining (fun _ => rfl) fun _ => rfl

/-- Rows close no partition. -/
theorem openIds_during (h : WellFormed tracker.statuses) (rows : List RoundRow) :
    openIds (rows.foldl Round.note tracker.startRound) = openIds tracker := by
  have hstart : openIds tracker.startRound = openIds tracker :=
    @openIds_onRemaining tracker (fun status => { status with retry := false }) (fun _ => rfl)
      fun _ => rfl
  have hordered : Ordered tracker.startRound.statuses :=
    ((moved_startRound tracker).wellFormed h).ordered
  rw [← hstart]
  exact openIds_eq (statuses_foldl_note hordered rows) (fun _ => rfl) fun _ => rfl

/-- A status at the end of a finished round: what need not be asked for again is done. -/
def settled (status : Partition.Status) : Partition.Status :=
  { status with done := !status.retry }

/-- If what closes a partition depends on its id alone, the others are left. -/
theorem openIds_of_closed {keeps : Nat → Bool} (hnext : next.statuses = tracker.statuses.map change)
    (hid : ∀ status, (change status).id = status.id)
    (hdone : ∀ status, (change status).done = (status.done || !keeps status.id)) :
    openIds next = (openIds tracker).filter keeps := by
  calc openIds next
      = (tracker.statuses.filter fun status => !(change status).done).map (·.id) :=
        openIds_of_map hnext hid
    _ = (tracker.statuses.filter fun status => keeps status.id && !status.done).map (·.id) := by
        congr 2
        funext status
        rw [hdone, Bool.not_or, Bool.not_not, Bool.and_comm]
    _ = (tracker.remaining.filter fun status => keeps status.id).map (·.id) := by
        rw [Tracker.remaining, List.filter_filter]
    _ = (openIds tracker).filter keeps := by
        rw [openIds, List.filter_map]
        rfl

/-- A finished round leaves the partitions that it refused. -/
theorem openIds_finishRound (h : WellFormed tracker.statuses) (rows : List RoundRow) :
    openIds (rows.foldl Round.note tracker.startRound).finishRound =
      (openIds tracker).filter fun id => refuses id rows := by
  have hnext : (rows.foldl Round.note tracker.startRound).finishRound.statuses =
      tracker.statuses.map (passed rows settled) := statuses_round h.ordered rows settled
  refine openIds_of_closed hnext ?_ ?_
  · intro status
    rw [passed, @Tracker.id_changeOpen settled fun _ => rfl]
    simp only [advance, Tracker.id_changeOpen, implies_true]
  · intro status
    cases hdone : status.done <;> simp [passed, settled, advance, Tracker.changeOpen, hdone]

theorem Moved.openIds_sublist (h : Moved rows tracker next) :
    (openIds next).Sublist (openIds tracker) := by
  obtain ⟨change, hmoves, hnext⟩ := h
  rw [openIds_of_map hnext hmoves.id_eq]
  refine (List.monotone_filter_right _ ?_).map _
  intro status hleft
  have hdone := hmoves.done_of_done status
  cases hbefore : status.done with
  | false => rfl
  | true => simp [hdone hbefore] at hleft

/-! ### Runs -/

/-- What has become of the tracker that a run began with, after some rows. -/
structure Progressed (origin : Tracker) (rows : List RoundRow) (tracker : Tracker) : Prop where
  wellFormed : WellFormed tracker.statuses
  ids_eq : tracker.statuses.map (·.id) = origin.statuses.map (·.id)
  /-- The digest of a partition is the last one delivered for it, or else the one it began with. -/
  digests_eq : (tracker.statuses.map fun status => (status.id, status.digest)) =
    origin.statuses.map fun status =>
      (status.id, (digestsIn status.id (dataRows rows)).getLast?.or status.digest)
  /-- What was done when the run began is done. -/
  narrowed : (openIds tracker).Sublist (openIds origin)

theorem progressed_refl (h : WellFormed origin.statuses) : Progressed origin [] origin :=
  ⟨h, rfl, rfl, List.Sublist.refl _⟩

theorem Progressed.step (h : Progressed origin rows tracker) (hmoved : Moved more tracker next) :
    Progressed origin (rows ++ more) next := by
  have hformed := hmoved.wellFormed h.wellFormed
  have hleft := hmoved.openIds_sublist.trans h.narrowed
  obtain ⟨change, hmoves, hnext⟩ := hmoved
  refine ⟨hformed, ?_, ?_, hleft⟩
  · rw [hnext, List.map_map, ← h.ids_eq]
    exact List.map_congr_left fun status _ => hmoves.id_eq status
  · -- The new digest is a function of the id and the old one.
    let later : Nat × Option Digest → Nat × Option Digest := fun (id, digest) =>
      (id, (digestsIn id (dataRows more)).getLast?.or digest)
    calc (next.statuses.map fun status => (status.id, status.digest))
        = (tracker.statuses.map fun status => (status.id, status.digest)).map later := by
          rw [hnext, List.map_map, List.map_map]
          refine List.map_congr_left fun status _ => ?_
          exact Prod.ext (hmoves.id_eq status) (hmoves.digest_eq status)
      _ = (origin.statuses.map fun status =>
            (status.id, (digestsIn status.id (dataRows rows)).getLast?.or status.digest)).map
              later := by rw [h.digests_eq]
      _ = origin.statuses.map fun status =>
            (status.id, (digestsIn status.id (dataRows (rows ++ more))).getLast?.or status.digest) := by
          rw [List.map_map]
          refine List.map_congr_left fun status _ => ?_
          simp only [Function.comp_apply, later, dataRows_append, digestsIn_append,
            List.getLast?_append, Option.or_assoc]

/-- A round as its tracker has seen it: the rows, and whether it came to its end or failed. -/
structure PastRound where
  rows : List RoundRow
  isFinished : Bool

def PastRound.pass (tracker : Tracker) (round : PastRound) : Tracker :=
  let during := round.rows.foldl Round.note tracker.startRound
  if round.isFinished then during.finishRound else during.failRound

theorem Progressed.during (h : Progressed origin rows tracker) (more : List RoundRow) :
    Progressed origin (rows ++ more) (more.foldl Round.note tracker.startRound) := by
  have hstarted : Progressed origin (rows ++ []) tracker.startRound :=
    h.step (moved_startRound tracker)
  rw [List.append_nil] at hstarted
  exact hstarted.step (moved_foldl_note hstarted.wellFormed.ordered more)

theorem Progressed.pass (h : Progressed origin rows tracker) (round : PastRound) :
    Progressed origin (rows ++ round.rows) (PastRound.pass tracker round) := by
  have hduring := h.during round.rows
  rw [PastRound.pass, ← List.append_nil (rows ++ round.rows)]
  split
  · exact hduring.step (moved_finishRound _)
  · exact hduring.step (moved_failRound _)

theorem Progressed.rounds (h : Progressed origin rows tracker) (rounds : List PastRound) :
    Progressed origin (rows ++ rounds.flatMap (·.rows)) (rounds.foldl PastRound.pass tracker) := by
  induction rounds generalizing rows tracker with
  | nil =>
      rw [List.flatMap_nil, List.append_nil]
      exact h
  | cons round rounds ih =>
      rw [List.flatMap_cons, ← List.append_assoc]
      exact ih (h.pass round)

/-! ### What the next round asks for -/

theorem asked_roundFilter (h : WellFormed tracker.statuses) :
    (tracker.roundFilter.statuses.map fun asked => (asked.id.toNat, asked.digest)) =
      tracker.remaining.map fun status => (status.id, status.digest.map (·.bytes)) := by
  rw [Tracker.roundFilter, List.map_map]
  refine List.map_congr_left fun status hmem => ?_
  have hrange := h.inRange (List.mem_of_mem_filter hmem)
  rw [Function.comp_apply, toNat_toUInt32 hrange]

theorem count_roundFilter (h : WellFormed tracker.statuses) :
    tracker.roundFilter.count.toNat = tracker.outstanding := by
  have hlength : tracker.outstanding ≤ Partition.count :=
    (List.length_filter_le ..).trans h.length_le
  rw [Partition.count] at hlength
  rw [Tracker.roundFilter, List.length_map]
  simp only [Nat.toUInt32, UInt32.toNat_ofNat']
  exact Nat.mod_eq_of_lt (Nat.lt_of_le_of_lt hlength (by decide))

/-- After any rounds, and after any rows of the next one, the tracker has the ids it began with, and for
each partition the digest of the last record delivered. The next round asks for what is not done, each
partition after its digest. If that round comes to its end it leaves what it refused; if it fails it
leaves what it found. -/
theorem rounds_keep_progress (h : Arises origin) (rounds : List PastRound) (rows : List RoundRow) :
    let before := rounds.foldl PastRound.pass origin
    let during := rows.foldl Round.note before.startRound
    Progressed origin (rounds.flatMap (·.rows)) before ∧
    Progressed origin (rounds.flatMap (·.rows) ++ rows) during ∧
    (before.roundFilter.statuses.map fun asked => (asked.id.toNat, asked.digest)) =
      (before.remaining.map fun status => (status.id, status.digest.map (·.bytes))) ∧
    before.roundFilter.count.toNat = before.outstanding ∧
    openIds during = openIds before ∧
    openIds during.finishRound = (openIds before).filter (fun id => refuses id rows) ∧
    openIds during.failRound = openIds before := by
  intro before during
  have hbefore : Progressed origin (rounds.flatMap (·.rows)) before :=
    (progressed_refl h.wellFormed).rounds rounds
  have hformed := hbefore.wellFormed
  have hduring : openIds during = openIds before := openIds_during hformed rows
  exact ⟨hbefore, hbefore.during rows, asked_roundFilter hformed, count_roundFilter hformed, hduring,
    openIds_finishRound hformed rows, (openIds_failRound during).trans hduring⟩

/-- A record of the partition 11. -/
def recordOfEleven (last : UInt8) : RoundRow :=
  .data { digest := some ⟨11 :: List.replicate 18 0 ++ [last], rfl⟩ } { generation := 1, expiration := 0 }

/-- Of the partitions 10 to 12 the first round brings a record of the middle one and then refuses it, so the
second round asks for it alone, after that record. -/
theorem refused_partition_progress :
    let origin := { statuses := [{ id := 10 }, { id := 11 }, { id := 12 }], maxRecords := 0 : Tracker }
    let refused := [recordOfEleven 1, .partitionDone 11 .partitionUnavailable]
    let before := [⟨refused, true⟩].foldl PastRound.pass origin
    let during := [recordOfEleven 2].foldl Round.note before.startRound
    Arises origin ∧ Progressed origin (refused ++ [recordOfEleven 2]) during ∧
      (before.roundFilter.statuses.map fun asked => (asked.id.toNat, asked.digest)) =
        [(11, some (11 :: List.replicate 18 0 ++ [1]))] ∧
      before.roundFilter.count.toNat = 1 ∧
      openIds during.finishRound = [] ∧ openIds during.failRound = [11] := by
  intro origin refused before during
  have harises : Arises origin := .fresh (.range 10 3) 0 origin (.range 10 3) rfl
  obtain ⟨-, hduring, hasked, hcount, -, hfinished, hfailed⟩ :=
    rounds_keep_progress harises [⟨refused, true⟩] [recordOfEleven 2]
  exact ⟨harises, hduring, hasked, hcount, hfinished, hfailed⟩

end RecordSet
end RecordGateway
