import RecordGateway.Proofs.CommandLine.Listing
import RecordGateway.Proofs.RecordSet.Headed
import RecordGateway.Proofs.Row.Passage

/-!
Two ways past the key of a row. A key is read field by field, or passed over field by field, and both come
to the same place: what is read can be passed over (`run_skipKey_of_readKey`), and what is passed over is
read or refused, which of the two is decided by the contents of the fields (`readOrRefused_of_skipKey`). So
whoever reads rows with their keys and whoever reads them without find the same rows in the same places
(`Reader.Follows.copies`).
-/

namespace RecordGateway.Row

variable {α β : Type} {cursor final : Cursor} {bytes : Bytes} {count : Nat}

theorem Cursor.Passes.run_eq {reader : Reader α} {value : α} (hpasses : cursor.Passes bytes final)
    (htakes : reader.Takes bytes value) : reader.run.run cursor = (.ok value, final) := by
  have hrun := htakes final.rest cursor.position
  rwa [← hpasses.rest_eq, ← hpasses.position_eq] at hrun

/-! ### Key fields -/

theorem takes_skipBlocks (fields : List Block) :
    (skipKey fields.length).Takes (fields.flatMap Block.encode) () := by
  induction fields with
  | nil => exact takes_pure ()
  | cons field fields ih =>
      rw [List.flatMap_cons, Block.encode, List.append_assoc]
      exact ih.skipKey_cons field.fits

/-- A key that is read can be passed over. -/
theorem run_skipKey_of_readKey {key : KeyEcho}
    (h : (readKey count).run.run cursor = (.ok key, final)) :
    (skipKey count).run.run cursor = (.ok (), final) := by
  obtain ⟨fields, rfl, hpasses⟩ := passes_of_readKey h
  exact hpasses.run_eq (takes_skipBlocks fields)

/-- The key with one more field, of which the whole content is given: a type and data. -/
def KeyEcho.addContent (echo : KeyEcho) : Bytes → Except Fault KeyEcho
  | [] => .error (.parse "zero length field")
  | type :: data => echo.add type data

/-- What the contents of fields tell of a key, one after the other. -/
def KeyEcho.addContents (echo : KeyEcho) (contents : List Bytes) : Except Fault KeyEcho :=
  contents.foldlM KeyEcho.addContent echo

/-- One field is read for its content, and the fields behind it are read where it ends. -/
theorem outcome_readKeyFrom_cons (echo : KeyEcho) (count : Nat) {content : Bytes}
    (fits : content.length < 2 ^ 32) (rest : Bytes) (position : Nat) :
    ∃ next, ((readKeyFrom echo (count + 1)).run.run
        ⟨BigEndian.encode 4 content.length ++ (content ++ rest), position⟩).1 =
      echo.addContent content >>= fun later =>
        ((readKeyFrom later count).run.run ⟨rest, next⟩).1 := by
  have hcount : content.length.toUInt32.toNat = content.length := UInt32.toNat_ofNat_of_lt' fits
  rw [readKeyFrom, (takes_readUInt32 fits).run_bind]
  generalize position + (BigEndian.encode 4 content.length).length = sized
  cases content with
  | nil => exact ⟨sized, rfl⟩
  | cons type data =>
      have hsome : (type :: data).length.toUInt32 ≠ 0 := by
        intro hzero
        rw [hzero] at hcount
        cases hcount
      have hdata : (readBytes ((type :: data).length.toUInt32.toNat - 1)).Takes data data :=
        takes_readBytes_of_eq (by rw [hcount]; rfl)
      have hread : (type :: data) ++ rest = [type] ++ (data ++ rest) := rfl
      rw [if_neg hsome, hread]
      change ∃ next, ((readByte >>= _).run.run _).1 = _
      rw [(takes_readByte type).run_bind, hdata.run_bind]
      -- The content has been taken before it is judged, so a refusal leaves the reader at the same place.
      refine ⟨sized + [type].length + data.length, ?_⟩
      show _ = echo.add type data >>= _
      cases echo.add type data with
      | error fault => rfl
      | ok later => rfl

/-- Whether a key is read is decided by the contents of its fields alone. -/
theorem outcome_readKeyFrom (echo : KeyEcho) (fields : List Block) (rest : Bytes) (position : Nat) :
    ((readKeyFrom echo fields.length).run.run ⟨fields.flatMap Block.encode ++ rest, position⟩).1 =
      echo.addContents (fields.map Block.content) := by
  induction fields generalizing echo position with
  | nil => rfl
  | cons field fields ih =>
      obtain ⟨next, hfirst⟩ := outcome_readKeyFrom_cons echo fields.length field.fits
        (fields.flatMap Block.encode ++ rest) position
      rw [List.flatMap_cons, Block.encode, List.append_assoc, List.append_assoc, List.length_cons, hfirst]
      exact bind_congr fun later => ih later next

/-- How a key is read over which one can pass to a place: to the same place and for what its fields tell, or
it is refused for what they contain. -/
inductive ReadOrRefused (fields : List Block) (cursor final : Cursor) : Prop where
  | read {key : KeyEcho} : KeyEcho.addContents {} (fields.map Block.content) = .ok key →
      (readKey fields.length).run.run cursor = (.ok key, final) → ReadOrRefused fields cursor final
  | refused {fault : Fault} {behind : Cursor} : fault.IsParse →
      KeyEcho.addContents {} (fields.map Block.content) = .error fault →
      (readKey fields.length).run.run cursor = (.error fault, behind) → ReadOrRefused fields cursor final

/-- A key that is passed over is read to the same place or refused. -/
theorem readOrRefused_of_skipKey (h : (skipKey count).run.run cursor = (.ok (), final)) :
    ∃ fields : List Block, fields.length = count ∧ cursor.Passes (fields.flatMap Block.encode) final ∧
      ReadOrRefused fields cursor final := by
  obtain ⟨fields, rfl, hpasses⟩ := passes_of_skipKey h
  refine ⟨fields, rfl, hpasses, ?_⟩
  have houtcome := outcome_readKeyFrom {} fields final.rest cursor.position
  have hfails := failsAs_readKeyFrom {} fields.length cursor
  have hplace : (⟨fields.flatMap Block.encode ++ final.rest, cursor.position⟩ : Cursor) = cursor := by
    rw [← hpasses.rest_eq]
  rw [hplace] at houtcome
  change ((readKey fields.length).run.run cursor).1 = _ at houtcome
  change FailsAs Fault.IsParse ((readKey fields.length).run.run cursor).1 at hfails
  rcases hread : (readKey fields.length).run.run cursor with ⟨fault | key, behind⟩
  · rw [hread] at houtcome hfails
    exact .refused (hfails fault rfl) houtcome.symm hread
  · rw [hread] at houtcome
    have hskip := run_skipKey_of_readKey hread
    obtain rfl : behind = final := congrArg Prod.snd (hskip.symm.trans h)
    exact .read houtcome.symm hread

/-! ### One row -/

theorem run_readAnonymous_of_keyed {header : Header} {row : KeyEcho × Record} {middle : Cursor}
    (hheader : Header.read.run.run cursor = (.ok header, middle))
    (hkeyed : (readKeyed header).run.run middle = (.ok row, final)) :
    readAnonymous.run.run cursor = (.ok (header, row.2), final) := by
  obtain ⟨behind, hkey, hrecord⟩ := run_readKeyed_ok_iff.mp hkeyed
  exact run_readAnonymous_ok_iff.mpr
    ⟨middle, behind, hheader, run_skipKey_of_readKey hkey, hrecord⟩

theorem run_readAnonymous_of_readWhole {row : Header × KeyEcho × Record}
    (h : readWhole.run.run cursor = (.ok row, final)) :
    readAnonymous.run.run cursor = (.ok (row.1, row.2.2), final) := by
  obtain ⟨middle, hheader, hkeyed⟩ := run_readWhole_ok_iff.mp h
  exact run_readAnonymous_of_keyed hheader hkeyed

/-- The record that a round puts on the queue is that of the row; of the end of a partition it keeps none. -/
def KeepsRecord (row : Header × RecordSet.RoundRow) (copy : Header × Record) : Prop :=
  copy.1 = row.1 ∧ ∀ key record, row.2 = .data key record → copy.2 = record

theorem anonymous_of_readHeaded {row : Header × RecordSet.RoundRow}
    (h : RecordSet.readHeaded.run.run cursor = (.ok (some row), final)) :
    ∃ copy, copy.1.isLast = false ∧ readAnonymous.run.run cursor = (.ok copy, final) ∧
      KeepsRecord row copy := by
  rw [RecordSet.run_readHeaded] at h
  rcases hheader : Header.read.run.run cursor with ⟨fault | header, middle⟩
  · rw [hheader] at h
    cases congrArg Prod.fst h
  · rw [hheader] at h
    obtain ⟨read, last, hrow, hlast⟩ := run_bind_ok_iff.mp h
    obtain ⟨hsome, rfl⟩ := Prod.mk.inj hlast
    obtain ⟨read, rfl, rfl⟩ := Option.map_eq_some_iff.mp (Except.ok.inj hsome)
    obtain ⟨hmore, -⟩ := RecordSet.readRow_of_header hheader hrow
    unfold RecordSet.readRow at hrow
    rw [run_bind_eq, hheader] at hrow
    dsimp only at hrow
    rw [if_neg (Bool.not_eq_true _ ▸ hmore)] at hrow
    by_cases hdone : header.isPartitionDone = true
    · rw [if_pos hdone] at hrow
      obtain ⟨_, behind, hskip, hrow⟩ := run_bind_ok_iff.mp hrow
      obtain ⟨_, _, hkept, hrow⟩ := run_bind_ok_iff.mp hrow
      obtain ⟨record, ended, hrecord, hnothing⟩ := run_bind_ok_iff.mp hkept
      obtain ⟨-, rfl⟩ := Prod.mk.inj hnothing
      obtain ⟨hread, rfl⟩ := Prod.mk.inj hrow
      obtain rfl := Option.some.inj (Except.ok.inj hread)
      have hcopy : readAnonymous.run.run cursor = (.ok (header, record), ended) :=
        run_readAnonymous_ok_iff.mpr ⟨middle, behind, hheader, hskip, hrecord⟩
      refine ⟨(header, record), hmore, hcopy, rfl, ?_⟩
      rintro key data ⟨⟩
    · rw [if_neg hdone] at hrow
      obtain ⟨hok, hrow⟩ := run_guard_ok_iff.mp hrow
      obtain ⟨⟨key, record⟩, ended, hkeyed, hrow⟩ := run_bind_ok_iff.mp hrow
      obtain ⟨hread, rfl⟩ := Prod.mk.inj hrow
      obtain rfl := Option.some.inj (Except.ok.inj hread)
      refine ⟨(header, record), hmore, run_readAnonymous_of_keyed hheader hkeyed, rfl, ?_⟩
      rintro _ _ ⟨⟩
      rfl

/-- What is listed of a row is what there is to list of its fixed part and its record. -/
def ListsRecord (isStream : Bool) (listed : Json.Value) (copy : Header × Record) : Prop :=
  ∃ key, listed = CommandLine.listRow isStream copy.1 key copy.2

theorem anonymous_of_readListedRow {isStream : Bool} {listed : Json.Value}
    (h : (CommandLine.readListedRow isStream).run.run cursor = (.ok (some listed), final)) :
    ∃ copy, copy.1.isLast = false ∧ readAnonymous.run.run cursor = (.ok copy, final) ∧
      ListsRecord isStream listed copy := by
  unfold CommandLine.readListedRow at h
  obtain ⟨header, middle, hheader, h⟩ := run_bind_ok_iff.mp h
  cases hlast : header.isLast with
  | true =>
      rw [if_pos hlast] at h
      cases congrArg Prod.fst h
  | false =>
      rw [if_neg (Bool.not_eq_true _ ▸ hlast)] at h
      obtain ⟨⟨key, record⟩, ended, hkeyed, h⟩ := run_bind_ok_iff.mp h
      obtain ⟨hlisted, rfl⟩ := Prod.mk.inj h
      obtain rfl := Option.some.inj (Except.ok.inj hlisted)
      exact ⟨(header, record), hlast, run_readAnonymous_of_keyed hheader hkeyed, key, rfl⟩

/-! ### Rows and their places -/

/-- A row with the places at which it begins and ends. -/
structure Placed (α : Type) where
  start : Nat
  row : α
  final : Nat

/-- Reads what `step` reads, and tells where it stands. -/
def Reader.placed (step : Reader (Option α)) : Reader (Option (Placed α)) := do
  let start ← get
  let row ← step
  let final ← get
  return row.map fun row => ⟨start.position, row, final.position⟩

theorem run_placed (step : Reader (Option α)) (cursor : Cursor) :
    step.placed.run.run cursor =
      match step.run.run cursor with
      | (.ok row, final) => (.ok (row.map fun row => ⟨cursor.position, row, final.position⟩), final)
      | (.error fault, final) => (.error fault, final) := by
  change (step >>= _ : Reader _).run.run cursor = _
  rw [run_bind_eq]
  rcases step.run.run cursor with ⟨fault | row, final⟩ <;> rfl

/-- The places beside the rows are all that is added to them. -/
theorem unfold_placed (step : Reader (Option α)) (fuel : Nat) (cursor : Cursor) :
    unfold step fuel cursor =
      ((unfold step.placed fuel cursor).1.map Placed.row, (unfold step.placed fuel cursor).2) := by
  have hstep : step = Option.map Placed.row <$> step.placed := by
    refine ExceptT.ext (StateT.ext fun cursor => ?_)
    rw [map_eq_pure_bind]
    change step.run.run cursor = (step.placed >>= fun row => pure (row.map Placed.row)).run.run cursor
    rw [run_bind_eq, run_placed]
    rcases step.run.run cursor with ⟨fault | _ | row, final⟩ <;> rfl
  conv_lhs => rw [hstep]
  exact unfold_map _ _ _ _

/-- The one row is a copy of the other, and they stand in the same place. -/
structure Placed.CopyOf (R : α → β → Prop) (row : Placed α) (copy : Placed β) : Prop where
  start_eq : copy.start = row.start
  final_eq : copy.final = row.final
  copies : R row.row copy.row

/-- Whatever row the one reads, the other reads a copy of it, up to the same place. -/
def Reader.Follows (other : Reader (Option β)) (step : Reader (Option α)) (R : α → β → Prop) : Prop :=
  ∀ cursor row final, step.run.run cursor = (.ok (some row), final) →
    ∃ copy, other.run.run cursor = (.ok (some copy), final) ∧ R row copy

/-- What the one reading comes to is copied by the first rows of the other, and by all of them if the one
comes to the last byte, as then the other does. -/
structure CopiedBy (R : α → β → Prop) (read : List (Placed α) × Except Fault Bool)
    (copy : List (Placed β) × Except Fault Bool) : Prop where
  rows : ∃ copies, copies <+: copy.1 ∧ List.Forall₂ (Placed.CopyOf R) read.1 copies
  whole : read.2 = .ok false → copy.2 = .ok false ∧ List.Forall₂ (Placed.CopyOf R) read.1 copy.1

/-- The rows that the one reads from any place on are copied by those that the other reads from there. -/
def Reader.Copies (other : Reader (Option β)) (step : Reader (Option α)) (R : α → β → Prop) : Prop :=
  ∀ fuel cursor, CopiedBy R (unfold step.placed fuel cursor) (unfold other.placed fuel cursor)

variable {step : Reader (Option α)} {other : Reader (Option β)} {R : α → β → Prop}
  {read : List (Placed α) × Except Fault Bool} {copy : List (Placed β) × Except Fault Bool}

theorem copiedBy_done : CopiedBy R ([], .ok false) ([], .ok false) :=
  ⟨⟨[], List.nil_prefix, .nil⟩, fun _ => ⟨rfl, .nil⟩⟩

theorem copiedBy_stopped {ending : Except Fault Bool} (h : ending ≠ .ok false) :
    CopiedBy R ([], ending) copy :=
  ⟨⟨[], List.nil_prefix, .nil⟩, fun hended => absurd hended h⟩

theorem CopiedBy.cons {first : Placed α} {second : Placed β} (hsame : first.CopyOf R second)
    (h : CopiedBy R read copy) : CopiedBy R (first :: read.1, read.2) (second :: copy.1, copy.2) := by
  constructor
  · obtain ⟨copies, hbegins, hcopies⟩ := h.rows
    exact ⟨second :: copies, (List.prefix_cons_inj second).mpr hbegins, .cons hsame hcopies⟩
  · intro hended
    obtain ⟨hend, hcopies⟩ := h.whole hended
    exact ⟨hend, .cons hsame hcopies⟩

theorem unfold_placed_row {row : α} (hopen : cursor.isAtEnd = false)
    (hrow : step.run.run cursor = (.ok (some row), final)) (fuel : Nat) :
    unfold step.placed (fuel + 1) cursor =
      (⟨cursor.position, row, final.position⟩ :: (unfold step.placed fuel final).1,
        (unfold step.placed fuel final).2) := by
  rw [unfold, hopen, run_placed, hrow]
  rfl

/-- Row by row the two readers stay in the same place, as long as the one that is followed goes on. -/
theorem Reader.Follows.copies (h : other.Follows step R) : other.Copies step R := by
  intro fuel
  induction fuel with
  | zero => exact fun _ => copiedBy_done
  | succ fuel ih =>
      intro cursor
      cases hopen : cursor.isAtEnd with
      | true =>
          rw [unfold, unfold, if_pos hopen, if_pos hopen]
          exact copiedBy_done
      | false =>
          rcases hrun : step.run.run cursor with ⟨fault | _ | row, final⟩
          · have hfailed : unfold step.placed (fuel + 1) cursor = ([], .error fault) := by
              rw [unfold, hopen, run_placed, hrun]
              rfl
            rw [hfailed]
            exact copiedBy_stopped (by simp)
          · have hlast : unfold step.placed (fuel + 1) cursor = ([], .ok true) := by
              rw [unfold, hopen, run_placed, hrun]
              rfl
            rw [hlast]
            exact copiedBy_stopped (by simp)
          · obtain ⟨copy, hcopy, hR⟩ := h _ _ _ hrun
            rw [unfold_placed_row hopen hrun, unfold_placed_row hopen hcopy]
            exact (ih final).cons ⟨rfl, rfl, hR⟩

/-- Both readers that pass over keys find what can be read without its key. -/
theorem copies_of_anonymous {step : Reader (Option α)} {R : α → Header × Record → Prop}
    (hstep : ∀ {cursor row final}, step.run.run cursor = (.ok (some row), final) →
      ∃ copy, copy.1.isLast = false ∧ readAnonymous.run.run cursor = (.ok copy, final) ∧ R row copy) :
    ∀ other ∈ [some <$> readAnonymous, Batch.Tally.readRow], other.Copies step R := by
  have halone : (some <$> readAnonymous).Follows step R := by
    intro cursor row final h
    obtain ⟨copy, -, hcopy, hR⟩ := hstep h
    rw [map_eq_pure_bind]
    exact ⟨copy, run_bind_ok_iff.mpr ⟨copy, final, hcopy, rfl⟩, hR⟩
  have hbatch : Batch.Tally.readRow.Follows step R := by
    intro cursor row final h
    obtain ⟨copy, hmore, hcopy, hR⟩ := hstep h
    exact ⟨copy, Batch.run_readRow_of_anonymous hcopy hmore, hR⟩
  rw [List.forall_mem_cons, List.forall_mem_singleton]
  exact ⟨halone.copies, hbatch.copies⟩

theorem copies_readWhole :
    (some <$> readAnonymous).Copies (some <$> readWhole) fun row copy => copy = (row.1, row.2.2) := by
  apply Reader.Follows.copies
  intro cursor row final h
  rw [map_eq_pure_bind] at h ⊢
  obtain ⟨read, ended, hread, h⟩ := run_bind_ok_iff.mp h
  obtain ⟨hrow, rfl⟩ := Prod.mk.inj h
  obtain rfl := Option.some.inj (Except.ok.inj hrow)
  exact ⟨_, run_bind_ok_iff.mpr ⟨_, ended, run_readAnonymous_of_readWhole hread, rfl⟩, rfl⟩

/-- A key that is read is passed over to the same place, and one that is passed over is read to the same place
or refused for what its fields contain. So whatever rows are read with their keys, of a record set or for a
listing, an answer to a single call or to a batch is read for the same fixed parts and records in the same
places. -/
theorem key_readers_agree :
    (∀ cursor count key final, (readKey count).run.run cursor = (.ok key, final) →
      (skipKey count).run.run cursor = (.ok (), final)) ∧
    (∀ cursor count final, (skipKey count).run.run cursor = (.ok (), final) →
      ∃ fields : List Block, fields.length = count ∧
        cursor.Passes (fields.flatMap Block.encode) final ∧ ReadOrRefused fields cursor final) ∧
    ((some <$> readAnonymous).Copies (some <$> readWhole) fun row copy => copy = (row.1, row.2.2)) ∧
    ∀ other ∈ [some <$> readAnonymous, Batch.Tally.readRow],
      other.Copies RecordSet.readHeaded KeepsRecord ∧
        ∀ isStream, other.Copies (CommandLine.readListedRow isStream) (ListsRecord isStream) := by
  refine ⟨?_, ?_, copies_readWhole, ?_⟩
  · exact fun _ _ _ _ => run_skipKey_of_readKey
  · exact fun _ _ _ => readOrRefused_of_skipKey
  · intro other hmem
    refine ⟨copies_of_anonymous anonymous_of_readHeaded other hmem, fun isStream => ?_⟩
    exact copies_of_anonymous anonymous_of_readListedRow other hmem

/-- A namespace is read and passed over; a field without content is only passed over; and a batch finds the
row and the end of a partition that a round finds. -/
theorem small_keys_agree :
    (∃ key, (readKey 1).run.run { rest := [0, 0, 0, 2, 0, 97] } = (.ok key, ⟨[], 6⟩) ∧
      key.ns = some "a" ∧
        (skipKey 1).run.run { rest := [0, 0, 0, 2, 0, 97] } = (.ok (), ⟨[], 6⟩)) ∧
    ((skipKey 1).run.run { rest := [0, 0, 0, 0] } = (.ok (), ⟨[], 4⟩) ∧
      ∃ fault behind, fault.IsParse ∧
        (readKey 1).run.run { rest := [0, 0, 0, 0] } = (.error fault, behind)) ∧
    (unfold RecordSet.readHeaded.placed 2
      { rest := bareRow 0 0 7 0 ++ bareRow 0 0 5 4 }).1.map Placed.start = [0, 22] ∧
    CopiedBy KeepsRecord
      (unfold RecordSet.readHeaded.placed 2 { rest := bareRow 0 0 7 0 ++ bareRow 0 0 5 4 })
      (unfold Batch.Tally.readRow.placed 2 { rest := bareRow 0 0 7 0 ++ bareRow 0 0 5 4 }) := by
  obtain ⟨hread, hskip, -, hrows⟩ := key_readers_agree
  have hkey : ∃ key, (readKey 1).run.run { rest := [0, 0, 0, 2, 0, 97] } = (.ok key, ⟨[], 6⟩) ∧
      key.ns = some "a" :=
    ⟨_, rfl, rfl⟩
  have hempty : (skipKey 1).run.run { rest := [0, 0, 0, 0] } = (.ok (), ⟨[], 4⟩) := rfl
  refine ⟨?_, ⟨hempty, ?_⟩, by decide +kernel, ?_⟩
  · obtain ⟨key, hok, hns⟩ := hkey
    exact ⟨key, hok, hns, hread _ _ _ _ hok⟩
  · obtain ⟨_, hone, -, ⟨-, hok⟩ | ⟨hfault, -, hfailed⟩⟩ := hskip _ _ _ hempty
    · rw [hone] at hok
      cases congrArg Prod.fst hok
    · rw [hone] at hfailed
      exact ⟨_, _, hfault, hfailed⟩
  · exact (hrows _ (List.mem_cons_of_mem _ (List.mem_singleton_self _))).1 _ _

end RecordGateway.Row
