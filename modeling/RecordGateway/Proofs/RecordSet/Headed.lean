import RecordGateway.Proofs.RecordSet.Round

/-!
Rows and the marks in their fixed parts. A round does not keep the fixed part of a row, which says whether
the row is the one after the last and whether it marks the end of a partition. `readHeaded` keeps it, so
that it can be said which of the rows of an answer are put on the queue: those with neither mark
(`dataRows_of_prefix`).
-/

namespace RecordGateway.RecordSet

open Row

/-- Reads a row as `readRow` does, and keeps its fixed part. -/
def readHeaded : Row.Reader (Option (Row.Header × RoundRow)) := do
  let cursor ← get
  let header ← Row.Header.read
  set cursor
  return (← readRow).map fun row => (header, row)

theorem run_readHeaded (cursor : Cursor) :
    readHeaded.run.run cursor =
      match Header.read.run.run cursor with
      | (.ok header, _) =>
        (readRow >>= fun row => pure (row.map fun row => (header, row))).run.run cursor
      | (.error fault, middle) => (.error fault, middle) := by
  change (Header.read >>= _ : Row.Reader _).run.run cursor = _
  rw [run_bind_eq]
  rcases Header.read.run.run cursor with ⟨fault | header, middle⟩ <;> rfl

theorem readRow_eq : readRow = Option.map Prod.snd <$> readHeaded := by
  refine ExceptT.ext (StateT.ext fun cursor => ?_)
  rw [map_eq_pure_bind]
  change readRow.run.run cursor = (readHeaded >>= fun row => pure (row.map Prod.snd)).run.run cursor
  rw [run_bind_eq, run_readHeaded]
  rcases hheader : Header.read.run.run cursor with ⟨fault | header, middle⟩
  · unfold readRow
    rw [run_bind_eq, hheader]
  · dsimp only
    rw [run_bind_eq]
    rcases readRow.run.run cursor with ⟨fault | row, final⟩
    · rfl
    · cases row <;> rfl

/-- A row is read only if it is not the one after the last, and it has data unless it marks the end of a
partition. -/
theorem readRow_of_header {cursor middle final : Cursor} {header : Row.Header} {row : RoundRow}
    (hheader : Header.read.run.run cursor = (.ok header, middle))
    (h : readRow.run.run cursor = (.ok (some row), final)) :
    header.isLast = false ∧ row.data?.isSome = !header.isPartitionDone := by
  unfold readRow at h
  rw [run_bind_eq, hheader] at h
  dsimp only at h
  cases hlast : header.isLast with
  | true =>
      rw [if_pos hlast] at h
      split at h
      · cases congrArg Prod.fst h
      · cases congrArg Prod.fst h
  | false =>
      refine ⟨rfl, ?_⟩
      rw [if_neg (by simp [hlast])] at h
      cases hdone : header.isPartitionDone with
      | true =>
          rw [if_pos hdone] at h
          obtain ⟨_, _, -, h⟩ := run_bind_ok_iff.mp h
          obtain ⟨_, _, -, h⟩ := run_bind_ok_iff.mp h
          cases congrArg Prod.fst h
          rfl
      | false =>
          rw [if_neg (by simp [hdone])] at h
          split at h
          · cases congrArg Prod.fst h
          · obtain ⟨_, _, -, h⟩ := run_bind_ok_iff.mp h
            cases congrArg Prod.fst h
            rfl

theorem readHeaded_row {cursor final : Cursor} {headed : Row.Header × RoundRow}
    (h : readHeaded.run.run cursor = (.ok (some headed), final)) :
    headed.1.isLast = false ∧ headed.2.data?.isSome = !headed.1.isPartitionDone := by
  rw [run_readHeaded] at h
  rcases hheader : Header.read.run.run cursor with ⟨fault | header, middle⟩
  · rw [hheader] at h
    cases congrArg Prod.fst h
  · rw [hheader] at h
    obtain ⟨row, last, hrow, hlast⟩ := run_bind_ok_iff.mp h
    have hsome : row.map (fun row => (header, row)) = some headed :=
      Except.ok.inj (congrArg Prod.fst hlast)
    obtain ⟨row, rfl, rfl⟩ := Option.map_eq_some_iff.mp hsome
    exact readRow_of_header hheader hrow

/-- The data of the rows that mark no end. -/
def unmarked (rows : List (Row.Header × RoundRow)) : List DataRow :=
  dataRows ((rows.filter fun row => !row.1.isLast && !row.1.isPartitionDone).map Prod.snd)

theorem dataRows_eq_unmarked {rows : List (Row.Header × RoundRow)}
    (hrows : ∀ row ∈ rows, row.1.isLast = false ∧ row.2.data?.isSome = !row.1.isPartitionDone) :
    dataRows (rows.map Prod.snd) = unmarked rows := by
  induction rows with
  | nil => rfl
  | cons row rows ih =>
      rw [List.forall_mem_cons] at hrows
      obtain ⟨⟨hlast, hdata⟩, hrows⟩ := hrows
      rw [List.map_cons, unmarked, List.filter_cons, hlast]
      cases hdone : row.1.isPartitionDone with
      | true =>
          have hnone : row.2.data? = none := by simpa [hdone] using hdata
          rw [dataRows, List.filterMap_cons_none hnone]
          exact ih hrows
      | false =>
          change dataRows ([row.2] ++ _) = dataRows ([row.2] ++ _)
          rw [dataRows_append, dataRows_append, ih hrows, unmarked]

/-- Of the first rows of an answer those with neither mark have data, and no others. -/
theorem dataRows_of_prefix {bytes : Bytes} {rows : List RoundRow}
    (hbegins : rows <+: (harvest readRow bytes).rows) :
    ∃ headed, headed <+: (harvest readHeaded bytes).rows ∧ headed.map Prod.snd = rows ∧
      dataRows rows = unmarked headed := by
  rw [readRow_eq, harvest_map] at hbegins
  obtain ⟨headed, hheaded, rfl⟩ := List.prefix_map_iff.mp hbegins
  refine ⟨headed, hheaded, rfl, dataRows_eq_unmarked fun row hmem => ?_⟩
  exact forall_mem_harvest (fun _ _ _ => readHeaded_row) bytes row (hheaded.subset hmem)

end RecordGateway.RecordSet
