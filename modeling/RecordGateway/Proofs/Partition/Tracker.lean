import RecordGateway.Partition.Tracker

/-!
The statuses of a tracker. Their ids increase (`Ordered`), and no operation changes an id, so looking a
partition up by its id is the same as changing every status that has it. If the statuses come in another
order, no partition twice (`Distinct`), only those below the one listed first are missed
(`updateById_eq_map_from`).
-/

namespace RecordGateway.Partition

/-- The statuses come in the order of their partitions, each partition once. -/
def Ordered (statuses : List Status) : Prop :=
  statuses.Pairwise fun one other => one.id < other.id

/-- No partition comes twice. -/
def Distinct (statuses : List Status) : Prop :=
  (statuses.map (·.id)).Nodup

instance (statuses : List Status) : Decidable (Distinct statuses) :=
  inferInstanceAs (Decidable (List.Nodup _))

/-- The id of the status that is listed first. -/
def firstListed (statuses : List Status) : Nat :=
  (statuses.head?.map (·.id)).getD 0

variable {statuses : List Status} {id : Nat} {change : Status → Status}

theorem Ordered.distinct (hordered : Ordered statuses) : Distinct statuses := by
  rw [Distinct, List.Nodup, List.pairwise_map]
  exact hordered.imp Nat.ne_of_lt

theorem Ordered.firstListed_le (hordered : Ordered statuses) {status : Status} (hmem : status ∈ statuses) :
    firstListed statuses ≤ status.id := by
  cases statuses with
  | nil => cases hmem
  | cons first rest =>
      obtain ⟨hless, -⟩ := List.pairwise_cons.mp hordered
      rcases List.mem_cons.mp hmem with rfl | hlater
      · exact Nat.le_refl _
      · exact Nat.le_of_lt (hless status hlater)

theorem Distinct.of_ids {others : List Status} (hdistinct : Distinct statuses)
    (hids : others.map (·.id) = statuses.map (·.id)) : Distinct others := by
  rw [Distinct, hids]
  exact hdistinct

theorem firstListed_of_ids {others : List Status} (hids : others.map (·.id) = statuses.map (·.id)) :
    firstListed others = firstListed statuses := by
  rw [firstListed, firstListed, ← List.head?_map, hids, List.head?_map]

theorem Ordered.map (hordered : Ordered statuses) (hid : ∀ status, (change status).id = status.id) :
    Ordered (statuses.map change) := by
  rw [Ordered, List.pairwise_map]
  simp only [hid]
  exact hordered

/-- Of two statuses for one partition there is only one. -/
theorem Ordered.eq_of_id_eq (hordered : Ordered statuses) {one other : Status}
    (hone : one ∈ statuses) (hother : other ∈ statuses) (hid : one.id = other.id) : one = other := by
  induction statuses with
  | nil => cases hone
  | cons status rest ih =>
      obtain ⟨hless, hrest⟩ := List.pairwise_cons.mp hordered
      rcases List.mem_cons.mp hone with heq | hlater
      · rcases List.mem_cons.mp hother with heq' | hlater'
        · exact heq.trans heq'.symm
        · exact absurd hid (Nat.ne_of_lt (heq ▸ hless _ hlater'))
      · rcases List.mem_cons.mp hother with heq' | hlater'
        · exact absurd hid (Nat.ne_of_gt (heq' ▸ hless _ hlater))
        · exact ih hrest hlater hlater'

namespace Tracker

/-- The change of the statuses with a given id. -/
def changeAt (id : Nat) (change : Status → Status) (status : Status) : Status :=
  if status.id = id then change status else status

theorem map_changeAt_of_notMem (hnone : id ∉ statuses.map (·.id)) :
    statuses.map (changeAt id change) = statuses := by
  have hsame : statuses.map (changeAt id change) = statuses.map fun status => status := by
    refine List.map_congr_left fun status hmem => if_neg ?_
    rintro rfl
    exact hnone (List.mem_map_of_mem hmem)
  rw [hsame, List.map_id']

theorem modify_eq_map (hdistinct : Distinct statuses) {place : Nat}
    (hplace : statuses[place]?.map (·.id) = some id) :
    statuses.modify place change = statuses.map (changeAt id change) := by
  induction statuses generalizing place with
  | nil => cases hplace
  | cons status rest ih =>
      obtain ⟨hnot, hrest⟩ := List.nodup_cons.mp hdistinct
      cases place with
      | zero =>
          obtain rfl : status.id = id := by simpa using hplace
          rw [List.modify_zero_cons, List.map_cons, map_changeAt_of_notMem hnot, changeAt, if_pos rfl]
      | succ place =>
          rw [List.getElem?_cons_succ] at hplace
          have hlater : id ∈ rest.map (·.id) := by
            obtain ⟨other, hother, rfl⟩ := Option.map_eq_some_iff.mp hplace
            exact List.mem_map_of_mem (List.mem_of_getElem? hother)
          have hbefore : status.id ≠ id := by
            rintro rfl
            exact hnot hlater
          rw [List.modify_succ_cons, ih hrest hplace, List.map_cons, changeAt, if_neg hbefore]

theorem updateFirst_eq_map (hdistinct : Distinct statuses) :
    updateFirst id change statuses = statuses.map (changeAt id change) := by
  induction statuses with
  | nil => rfl
  | cons status rest ih =>
      obtain ⟨hnot, hrest⟩ := List.nodup_cons.mp hdistinct
      rw [updateFirst, List.map_cons, changeAt]
      by_cases hid : status.id = id
      · subst hid
        rw [if_pos rfl, if_pos rfl, map_changeAt_of_notMem hnot]
      · rw [if_neg hid, if_neg hid, ih hrest]

/-- The change of the statuses from a given id on. -/
def changeFrom (first : Nat) (change : Status → Status) (status : Status) : Status :=
  if first ≤ status.id then change status else status

theorem changeFrom_self (first : Nat) : changeFrom first (fun status => status) = fun status => status := by
  funext status
  exact ite_self _

/-- In whatever order the statuses come, the one that is changed is that of the partition, but only if its id
is not below the one listed first. -/
theorem updateById_eq_map_from (hdistinct : Distinct statuses) :
    updateById id change statuses =
      statuses.map (changeFrom (firstListed statuses) (changeAt id change)) := by
  cases statuses with
  | nil => rfl
  | cons first rest =>
      have hfirst : firstListed (first :: rest) = first.id := rfl
      rw [hfirst]
      by_cases hbelow : id < first.id
      · have hsame : changeFrom first.id (changeAt id change) = fun status => status := by
          funext status
          rw [changeFrom, changeAt]
          split
          · next hfrom => exact if_neg (Nat.ne_of_gt (Nat.lt_of_lt_of_le hbelow hfrom))
          · rfl
        rw [updateById, if_pos hbelow, hsame, List.map_id']
      · have hfound : changeFrom first.id (changeAt id change) = changeAt id change := by
          funext status
          rw [changeFrom, changeAt]
          split
          · rfl
          · next hother => exact (if_neg (by omega)).symm
        rw [updateById, if_neg hbelow, hfound]
        split
        · next hplace => exact modify_eq_map hdistinct hplace
        · exact updateFirst_eq_map hdistinct

theorem ids_updateFirst (hid : ∀ status, (change status).id = status.id) :
    (updateFirst id change statuses).map (·.id) = statuses.map (·.id) := by
  induction statuses with
  | nil => rfl
  | cons status rest ih =>
      rw [updateFirst]
      split
      · rw [List.map_cons, List.map_cons, hid]
      · rw [List.map_cons, List.map_cons, ih]

/-- In whatever order the statuses come, changing one leaves the ids as they are. -/
theorem ids_updateById (hid : ∀ status, (change status).id = status.id) :
    (updateById id change statuses).map (·.id) = statuses.map (·.id) := by
  cases statuses with
  | nil => rfl
  | cons first rest =>
      rw [updateById]
      split
      · rfl
      · split
        · refine List.ext_getElem? fun index => ?_
          rw [List.getElem?_map, List.getElem?_map, List.getElem?_modify, Option.map_eq_map,
            Option.map_map]
          congr 1
          funext status
          split
          · exact hid status
          · rfl
        · exact ids_updateFirst hid

/-! ### What a round reports -/

theorem ids_deliver (tracker : Tracker) (digest : Option Digest) :
    (tracker.deliver digest).statuses.map (·.id) = tracker.statuses.map (·.id) := by
  cases digest with
  | none => rfl
  | some digest => exact ids_updateById fun _ => rfl

theorem ids_report (tracker : Tracker) (id : Nat) (code : ResultCode) :
    (tracker.report id code).statuses.map (·.id) = tracker.statuses.map (·.id) := by
  rw [report]
  split
  · rfl
  · exact ids_updateById fun _ => rfl

/-! ### What the beginning and the end of a round change -/

def changeOpen (change : Status → Status) (status : Status) : Status :=
  if status.done then status else change status

theorem statuses_onRemaining (change : Status → Status) (tracker : Tracker) :
    (tracker.onRemaining change).statuses = tracker.statuses.map (changeOpen change) :=
  rfl

theorem id_changeOpen (hid : ∀ status, (change status).id = status.id) (status : Status) :
    (changeOpen change status).id = status.id := by
  rw [changeOpen]
  split
  · rfl
  · exact hid status

theorem digest_changeOpen (hdigest : ∀ status, (change status).digest = status.digest)
    (status : Status) : (changeOpen change status).digest = status.digest := by
  rw [changeOpen]
  split
  · rfl
  · exact hdigest status

/-! ### Beginnings -/

theorem ids_freshStatuses (first count : Nat) (digest : Option Digest) :
    (freshStatuses first count digest).map (·.id) = List.range' first count := by
  rw [freshStatuses]
  cases count with
  | zero => rfl
  | succ count => simp [List.range'_succ, Function.comp_def]

theorem ordered_of_ids {first count : Nat} (hids : statuses.map (·.id) = List.range' first count) :
    Ordered statuses := by
  have hrange : (List.range' first count).Pairwise (· < ·) := List.pairwise_lt_range'
  rw [← hids, List.pairwise_map] at hrange
  exact hrange

theorem ordered_freshStatuses (first count : Nat) (digest : Option Digest) :
    Ordered (freshStatuses first count digest) :=
  ordered_of_ids (ids_freshStatuses first count digest)

/-- Only the first partition of a range goes on after a digest; none has been read. -/
theorem mem_freshStatuses {first count : Nat} {digest : Option Digest} {status : Status}
    (hmem : status ∈ freshStatuses first count digest) :
    status.digest = (if status.id = first then digest else none) ∧ status.done = false := by
  rw [freshStatuses] at hmem
  cases count with
  | zero => cases hmem
  | succ count =>
      rw [List.range'_succ, List.map_cons] at hmem
      rcases List.mem_cons.mp hmem with rfl | hlater
      · simp
      · obtain ⟨id, hid, rfl⟩ := List.mem_map.mp hlater
        have hafter : id ≠ first := by
          rw [List.mem_range'_1] at hid
          omega
        simp [hafter]

end Tracker
end RecordGateway.Partition
