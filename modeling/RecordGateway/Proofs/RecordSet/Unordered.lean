import RecordGateway.Proofs.RecordSet.Course
import RecordGateway.Proofs.RecordSet.Progress

/-!
Statuses in any order. Whether a filter is accepted depends on its range and not on the statuses that come with
it, so these may have gaps and come in any order. A partition is then looked up as if one went through the
list, except that those below the one listed first are not found (`lookup_eq_search_iff`). A round therefore
moves only the others on (`statuses_during`); one that is not found gets no digest, and if it has been
refused the end of the round closes it all the same.
-/

namespace RecordGateway.RecordSet

open RecordGateway.Partition (Tracker Distinct firstListed firstListed_of_ids)

variable {statuses : List Partition.Status} {tracker : Tracker} {first : Nat} {rows : List RoundRow}

/-- The lookup comes to the same as going through the list exactly for the partitions that are not listed,
and for those that are not below the one listed first. -/
theorem lookup_eq_search_iff (h : Distinct statuses) (id : Nat) :
    (∀ change, Tracker.updateById id change statuses = Tracker.updateFirst id change statuses) ↔
      (id ∈ statuses.map (·.id) → firstListed statuses ≤ id) := by
  simp only [Tracker.updateById_eq_map_from h, Tracker.updateFirst_eq_map h, List.map_inj_left]
  constructor
  · intro hsame hmem
    obtain ⟨status, hstatus, rfl⟩ := List.mem_map.mp hmem
    by_contra hbelow
    have hclosed := congrArg (·.done)
      (hsame (fun status => { status with done := !status.done }) status hstatus)
    rw [Tracker.changeFrom, if_neg hbelow, Tracker.changeAt, if_pos rfl] at hclosed
    cases hdone : status.done <;> simp [hdone] at hclosed
  · intro hfrom change status hstatus
    rw [Tracker.changeFrom]
    split
    · rfl
    · next hbelow =>
        rw [Tracker.changeAt, if_neg]
        rintro rfl
        exact hbelow (hfrom (List.mem_map_of_mem hstatus))

/-! ### Rounds -/

/-- A status in the course of a round that finds the partitions from a given one on. -/
def movedFrom (first : Nat) (rows : List RoundRow) (status : Partition.Status) : Partition.Status :=
  Tracker.changeFrom first (advance rows)
    (Tracker.changeOpen (fun status => { status with retry := false }) status)

theorem id_movedFrom (status : Partition.Status) : (movedFrom first rows status).id = status.id := by
  rw [movedFrom, Tracker.changeFrom]
  split <;> simp only [advance, Tracker.id_changeOpen, implies_true]

theorem digest_movedFrom (status : Partition.Status) :
    (movedFrom first rows status).digest =
      if first ≤ status.id then (digestsIn status.id (dataRows rows)).getLast?.or status.digest
      else status.digest := by
  simp only [movedFrom, Tracker.changeFrom, Tracker.id_changeOpen, implies_true]
  split <;> simp only [advance, Tracker.id_changeOpen, Tracker.digest_changeOpen, implies_true]

/-- At the end of a round it is done unless it has been found and refused. -/
theorem done_settled_movedFrom (status : Partition.Status) :
    (Tracker.changeOpen settled (movedFrom first rows status)).done =
      (status.done || !(decide (first ≤ status.id) && refuses status.id rows)) := by
  by_cases hfrom : first ≤ status.id <;> cases hdone : status.done <;>
    simp [movedFrom, settled, advance, Tracker.changeOpen, Tracker.changeFrom, hdone, hfrom]

theorem statuses_during (h : Distinct tracker.statuses) (rows : List RoundRow) :
    (rows.foldl Round.note tracker.startRound).statuses =
      tracker.statuses.map (movedFrom (firstListed tracker.statuses) rows) := by
  have hids := (advanced_startRound tracker).ids_eq
  rw [statuses_foldl_note_from (h.of_ids hids), firstListed_of_ids hids, Tracker.startRound,
    Tracker.statuses_onRemaining, List.map_map]
  rfl

/-- Of the partitions that it refused, a finished round leaves those that are found. -/
theorem openIds_finishRound_from (h : Distinct tracker.statuses) (rows : List RoundRow) :
    openIds (rows.foldl Round.note tracker.startRound).finishRound =
      (openIds tracker).filter fun id => firstListed tracker.statuses ≤ id && refuses id rows := by
  have hnext : (rows.foldl Round.note tracker.startRound).finishRound.statuses =
      tracker.statuses.map fun status =>
        Tracker.changeOpen settled (movedFrom (firstListed tracker.statuses) rows status) := by
    rw [Tracker.finishRound, Tracker.statuses_onRemaining, statuses_during h, List.map_map]
    rfl
  refine openIds_of_closed hnext (fun status => ?_) done_settled_movedFrom
  rw [@Tracker.id_changeOpen settled fun _ => rfl, id_movedFrom]

theorem ids_pass (tracker : Tracker) (round : PastRound) :
    (PastRound.pass tracker round).statuses.map (·.id) = tracker.statuses.map (·.id) := by
  have hclose : ∀ {close : Partition.Status → Partition.Status},
      (∀ status, (close status).id = status.id) →
      ((round.rows.foldl Round.note tracker.startRound).onRemaining close).statuses.map (·.id) =
        tracker.statuses.map (·.id) := by
    intro close hid
    have hduring := (advanced_startRound tracker).trans (advanced_foldl_note round.rows _)
    exact (hduring.trans (advanced_onRemaining hid _)).ids_eq
  rw [PastRound.pass]
  split
  · exact hclose fun _ => rfl
  · exact hclose fun _ => rfl

theorem ids_rounds (rounds : List PastRound) (tracker : Tracker) :
    (rounds.foldl PastRound.pass tracker).statuses.map (·.id) = tracker.statuses.map (·.id) := by
  induction rounds generalizing tracker with
  | nil => rfl
  | cons round rounds ih => rw [List.foldl_cons, ih, ids_pass]

/-- In whatever order the statuses come that a run began with, and after any rounds: a partition is looked up
as if one went through the list, exactly unless it is listed and below the one listed first. So the rows of
the next round give every partition its last digest, and the end of the round leaves every partition that it
refused, with the exception of these. -/
theorem progress_in_any_order (origin : Tracker) (h : Distinct origin.statuses) (rounds : List PastRound)
    (rows : List RoundRow) :
    let first := firstListed origin.statuses
    let before := rounds.foldl PastRound.pass origin
    let during := rows.foldl Round.note before.startRound
    (∀ id, (∀ change, Tracker.updateById id change during.statuses =
        Tracker.updateFirst id change during.statuses) ↔
      (id ∈ origin.statuses.map (·.id) → first ≤ id)) ∧
    (during.statuses.map fun status => (status.id, status.digest)) =
      (before.statuses.map fun status => (status.id,
        if first ≤ status.id then (digestsIn status.id (dataRows rows)).getLast?.or status.digest
        else status.digest)) ∧
    openIds during.finishRound = (openIds before).filter fun id => first ≤ id && refuses id rows := by
  intro first before during
  have hbefore : before.statuses.map (·.id) = origin.statuses.map (·.id) := ids_rounds rounds origin
  have hduring : during.statuses.map (·.id) = origin.statuses.map (·.id) :=
    ((advanced_startRound before).trans (advanced_foldl_note rows _)).ids_eq.trans hbefore
  have hdistinct : Distinct before.statuses := h.of_ids hbefore
  have hfirst : firstListed before.statuses = first := firstListed_of_ids hbefore
  refine ⟨fun id => ?_, ?_, ?_⟩
  · have hlookup := lookup_eq_search_iff (h.of_ids hduring) id
    rwa [hduring, firstListed_of_ids hduring] at hlookup
  · rw [statuses_during hdistinct, hfirst, List.map_map]
    exact List.map_congr_left fun status _ => Prod.ext (id_movedFrom status) (digest_movedFrom status)
  · rw [openIds_finishRound_from hdistinct, hfirst]

/-- Of the partitions 12, 11 and 14, listed in this order, a round brings a record of the second one and
refuses all three, and the end of the round closes the second one. -/
theorem refused_in_any_order :
    let origin : Tracker := { statuses := [{ id := 12 }, { id := 11 }, { id := 14 }], maxRecords := 0 }
    let rows := [recordOfEleven 1, .partitionDone 11 .partitionUnavailable,
      .partitionDone 12 .partitionUnavailable, .partitionDone 14 .partitionUnavailable]
    let before := [⟨[], false⟩].foldl PastRound.pass origin
    let during := rows.foldl Round.note before.startRound
    Distinct origin.statuses ∧ openIds during.finishRound = [12, 14] ∧
      (during.statuses.map fun status => (status.id, status.digest)) =
        [(12, none), (11, none), (14, none)] := by
  intro origin rows before during
  have hdistinct : Distinct origin.statuses := by decide
  obtain ⟨-, hdigests, hopen⟩ := progress_in_any_order origin hdistinct [⟨[], false⟩] rows
  exact ⟨hdistinct, hopen, hdigests⟩

/-- A filter for the partitions 11 and 12 that lists the later one first is accepted, but 11 is not found: it
gets no digest from its record, and when a round that refused it has come to its end it is done. -/
theorem refused_partition_lost :
    let statuses : List Partition.Status := [{ id := 12 }, { id := 11 }]
    let origin : Tracker := { statuses, maxRecords := 0 }
    let rows := [recordOfEleven 1, .partitionDone 11 .partitionUnavailable]
    let during := rows.foldl Round.note origin.startRound
    Tracker.ofFilter { first := 11, count := 2, statuses := some statuses } 0 = .ok origin ∧
      Distinct statuses ∧ 11 ∈ openIds origin ∧ refuses 11 rows = true ∧
      ¬ (∀ change, Tracker.updateById 11 change statuses = Tracker.updateFirst 11 change statuses) ∧
      during.statuses.map (·.digest) = [none, none] ∧ openIds during.finishRound = [] := by
  intro statuses origin rows during
  refine ⟨rfl, by decide, by decide, rfl, fun hsame => ?_, rfl, rfl⟩
  exact absurd (hsame fun status => { status with done := true }) (by decide)

end RecordGateway.RecordSet
