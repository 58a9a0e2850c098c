import RecordGateway.CommandLine.Listing
import RecordGateway.Proofs.Batch.Reassembly
import RecordGateway.Proofs.RecordSet.Round
import RecordGateway.Proofs.Row.Acceptance
import RecordGateway.Proofs.Row.Failures
import RecordGateway.Proofs.Row.Recovery

/-!
A row in a buffer. Every length in a row is read from the row itself, and still a row that is read ends where
its parts end, depends on nothing outside them, and cannot be read from fewer bytes (`TakesRow`). The fixed
part alone takes 22 bytes, so the rows of a body come to an end however they are read: a reading with a bound
on its steps gives what a reading without one gives (`unfolds_iff`).
-/

namespace RecordGateway.Row

variable {α : Type} {sort : Fault → Prop} {buffer taken body : Bytes} {start fuel : Nat}
  {cursor final : Cursor} {rows : List α} {ending : Except Fault Bool}

/-- The place so many bytes behind the beginning of a buffer. -/
def Cursor.inside (buffer : Bytes) (start : Nat) : Cursor :=
  ⟨buffer.drop start, start⟩

theorem Cursor.inside_append (front back : Bytes) :
    Cursor.inside (front ++ back) front.length = ⟨back, front.length⟩ := by
  rw [Cursor.inside, List.drop_left]

theorem Cursor.Passes.eq_inside (h : (Cursor.inside buffer start).Passes taken final) :
    final = .inside buffer (start + taken.length) := by
  have hrest : buffer.drop (start + taken.length) = final.rest := by
    rw [← List.drop_drop]
    show (Cursor.inside buffer start).rest.drop taken.length = final.rest
    rw [h.rest_eq, List.drop_left]
  rw [Cursor.inside, hrest]
  exact congrArg (Cursor.mk final.rest) h.position_eq

/-! ### The parts of a row -/

/-- The parts of the bytes of a row. -/
structure RowParts where
  fixed : Bytes
  fields : List Block
  bins : List Block

/-- The parts one after the other. -/
def RowParts.bytes (parts : RowParts) : Bytes :=
  parts.fixed ++ (parts.fields.flatMap Block.encode ++ parts.bins.flatMap Block.encode)

/-- The parts are as long and as many as the fixed part says. -/
structure RowParts.Fits (parts : RowParts) (header : Header) : Prop where
  length_fixed : parts.fixed.length = header.length.toNat
  minLength_le : Header.minLength ≤ parts.fixed.length
  length_fields : parts.fields.length = header.fieldCount.toNat
  length_bins : parts.bins.length = header.opCount.toNat

theorem RowParts.Fits.length_bytes {parts : RowParts} {header : Header} (h : parts.Fits header) :
    parts.bytes.length = header.length.toNat +
      (parts.fields.map fun field => 4 + field.content.length).sum +
      (parts.bins.map fun bin => 4 + bin.content.length).sum := by
  rw [RowParts.bytes, List.length_append, List.length_append, length_blocks, length_blocks,
    h.length_fixed, Nat.add_assoc]

theorem RowParts.Fits.le_length {parts : RowParts} {header : Header} (h : parts.Fits header) :
    Header.minLength ≤ parts.bytes.length := by
  rw [RowParts.bytes, List.length_append]
  exact Nat.le_trans h.minLength_le (Nat.le_add_right ..)

theorem passes_of_readWhole {row : Header × KeyEcho × Record}
    (h : readWhole.run.run cursor = (.ok row, final)) :
    ∃ parts : RowParts, parts.Fits row.1 ∧ cursor.Passes parts.bytes final := by
  obtain ⟨_, hheader, hkeyed⟩ := run_readWhole_ok_iff.mp h
  obtain ⟨_, hkey, hrecord⟩ := run_readKeyed_ok_iff.mp hkeyed
  obtain ⟨fixed, hlength, hleast, hfixed⟩ := passes_of_readHeader hheader
  obtain ⟨fields, hfieldCount, hfields⟩ := passes_of_readKey hkey
  obtain ⟨bins, _, hbinCount, -, hbins, -⟩ := passes_of_readBinsInto hrecord
  exact ⟨⟨fixed, fields, bins⟩, ⟨hlength, hleast, hfieldCount, hbinCount⟩,
    hfixed.trans (hfields.trans hbins)⟩

theorem passes_of_readAnonymous {row : Header × Record}
    (h : readAnonymous.run.run cursor = (.ok row, final)) :
    ∃ parts : RowParts, parts.Fits row.1 ∧ cursor.Passes parts.bytes final := by
  obtain ⟨_, _, hheader, hkey, hrecord⟩ := run_readAnonymous_ok_iff.mp h
  obtain ⟨fixed, hlength, hleast, hfixed⟩ := passes_of_readHeader hheader
  obtain ⟨fields, hfieldCount, hfields⟩ := passes_of_skipKey hkey
  obtain ⟨bins, _, hbinCount, -, hbins, -⟩ := passes_of_readBinsInto hrecord
  exact ⟨⟨fixed, fields, bins⟩, ⟨hlength, hleast, hfieldCount, hbinCount⟩,
    hfixed.trans (hfields.trans hbins)⟩

/-! ### What a row depends on -/

/-- Of bytes that are taken for a value nothing can be missing at the end: what would be taken of fewer would
be taken of them all, and leave some of them over. -/
theorem Reader.Takes.fails_of_cut {reader : Reader α} {bytes : Bytes} {value : α}
    (htakes : reader.Takes bytes value) (hlocal : reader.Local) (hfails : reader.FailsAs sort)
    {cut : Nat} (hcut : cut < bytes.length) (position : Nat) :
    ∃ fault, sort fault ∧ (reader.run.run ⟨bytes.take cut, position⟩).1 = .error fault := by
  rcases hrun : reader.run.run ⟨bytes.take cut, position⟩ with ⟨fault | other, final⟩
  · have hfault := hfails ⟨bytes.take cut, position⟩
    rw [hrun] at hfault
    exact ⟨fault, hfault fault rfl, rfl⟩
  · exfalso
    obtain ⟨taken, hrest, hother⟩ := hlocal _ _ _ hrun
    have hbytes : bytes = taken ++ (final.rest ++ bytes.drop cut) := by
      rw [← List.append_assoc, ← show bytes.take cut = taken ++ final.rest from hrest,
        List.take_append_drop]
    have hwhole := htakes [] position
    rw [List.append_nil, hbytes, hother] at hwhole
    have hnothing : final.rest ++ bytes.drop cut = [] :=
      congrArg Cursor.rest (Prod.mk.inj hwhole).2
    have hdropped := List.drop_eq_nil_iff.mp (List.append_eq_nil_iff.mp hnothing).2
    omega

/-- How a row lies in the buffer from which it has been read. It ends behind its parts, inside the buffer;
the same bytes are read as the same row in any other buffer; and when some of them are missing at the end they
are refused. -/
structure TakesRow (reader : Reader α) (header : Header) (row : α) (buffer : Bytes) (start : Nat)
    (final : Cursor) (parts : RowParts) : Prop where
  fits : parts.Fits header
  final_eq : final = .inside buffer (start + header.length.toNat +
    (parts.fields.map fun field => 4 + field.content.length).sum +
    (parts.bins.map fun bin => 4 + bin.content.length).sum)
  far_enough : start + 22 ≤ final.position
  not_beyond : final.position ≤ buffer.length
  between : (buffer.drop start).take (final.position - start) = parts.bytes
  unaffected : ∀ front back, reader.run.run (.inside (front ++ (parts.bytes ++ back)) front.length) =
    (.ok row, .inside (front ++ (parts.bytes ++ back)) (front.length + (final.position - start)))
  needed : ∀ front cut, cut < parts.bytes.length → ∃ fault : Fault, fault.IsParse ∧
    (reader.run.run (.inside (front ++ parts.bytes.take cut) front.length)).1 = .error fault

/-- The reader takes rows, and what it returns tells the fixed part of the row. -/
def Reader.TakesRows (reader : Reader α) (headerOf : α → Header) : Prop :=
  ∀ buffer start row final, reader.run.run (.inside buffer start) = (.ok row, final) →
    ∃ parts, TakesRow reader (headerOf row) row buffer start final parts

theorem takesRows_of_passes {reader : Reader α} {headerOf : α → Header} (hlocal : reader.Local)
    (hfails : reader.FailsAs Fault.IsParse)
    (hparts : ∀ cursor row final, reader.run.run cursor = (.ok row, final) →
      ∃ parts : RowParts, parts.Fits (headerOf row) ∧ cursor.Passes parts.bytes final) :
    reader.TakesRows headerOf := by
  intro buffer start row final h
  obtain ⟨parts, hfits, hpasses⟩ := hparts _ _ _ h
  obtain ⟨bytes, hbytes, htakes⟩ := hlocal.passes h
  have hsame : bytes = parts.bytes :=
    List.append_cancel_right (hbytes.rest_eq.symm.trans hpasses.rest_eq)
  rw [hsame] at htakes
  have hlength : final.position - start = parts.bytes.length := by
    rw [hpasses.position_eq]
    exact Nat.add_sub_cancel_left ..
  have hrest : buffer.drop start = parts.bytes ++ final.rest := hpasses.rest_eq
  refine ⟨parts, hfits, ?_, ?_, ?_, ?_, ?_, ?_⟩
  · rw [hpasses.eq_inside, hfits.length_bytes, ← Nat.add_assoc, ← Nat.add_assoc]
  · rw [hpasses.position_eq]
    exact Nat.add_le_add_left hfits.le_length start
  · have hcount := congrArg List.length hrest
    have hleast := hfits.le_length
    rw [List.length_drop, List.length_append] at hcount
    rw [hpasses.position_eq]
    show start + parts.bytes.length ≤ buffer.length
    rw [Header.minLength] at hleast
    omega
  · rw [hlength, hrest, List.take_left]
  · intro front back
    rw [hlength, Cursor.inside_append, htakes, ← List.append_assoc, ← List.length_append,
      Cursor.inside_append]
  · intro front cut hcut
    rw [Cursor.inside_append]
    exact htakes.fails_of_cut hlocal hfails hcut front.length

theorem takesRows_readWhole : readWhole.TakesRows Prod.fst := by
  have hfails : readWhole.FailsAs Fault.IsParse := by
    unfold readWhole
    refine failsAs_readHeader.bind fun header => ?_
    refine (failsAs_readKeyFrom {} _).bind fun key => ?_
    exact (failsAs_readRecord header).bind fun record => Reader.failsAs_pure _
  exact takesRows_of_passes local_readWhole hfails fun _ _ _ => passes_of_readWhole

theorem takesRows_readAnonymous : readAnonymous.TakesRows Prod.fst := by
  have hlocal : readAnonymous.Local := by
    unfold readAnonymous
    refine local_readHeader.bind fun header => ?_
    refine (local_skipKey _).bind fun _ => ?_
    exact (local_readRecord header).bind fun record => local_pure _
  exact takesRows_of_passes hlocal failsAs_readAnonymous fun _ _ _ => passes_of_readAnonymous

/-! ### Rows one after the other -/

/-- The rows from a place on and how they end, read without a bound on their number. -/
inductive Unfolds (step : Reader (Option α)) : Cursor → List α → Except Fault Bool → Prop where
  | done {cursor : Cursor} : cursor.isAtEnd = true → Unfolds step cursor [] (.ok false)
  | failed {cursor final : Cursor} {fault : Fault} : cursor.isAtEnd = false →
      step.run.run cursor = (.error fault, final) → Unfolds step cursor [] (.error fault)
  | last {cursor final : Cursor} : cursor.isAtEnd = false →
      step.run.run cursor = (.ok none, final) → Unfolds step cursor [] (.ok true)
  | row {cursor next : Cursor} {row : α} {rows : List α} {ending : Except Fault Bool} :
      cursor.isAtEnd = false → step.run.run cursor = (.ok (some row), next) →
      Unfolds step next rows ending → Unfolds step cursor (row :: rows) ending

/-- Whatever the reader reads begins with the fixed part of a row, which takes its least length. -/
theorem minLength_of_headerFirst {reader : Reader α} {row : α} (hreader : reader.HeaderFirst)
    (h : reader.run.run cursor = (.ok row, final)) :
    Header.minLength + final.rest.length ≤ cursor.rest.length := by
  obtain ⟨behind, hbehind, rfl⟩ := hreader
  obtain ⟨header, middle, hheader, h⟩ := run_bind_ok_iff.mp h
  obtain ⟨fixed, -, hleast, hfixed⟩ := passes_of_readHeader hheader
  obtain ⟨more, hmore, -⟩ := (hbehind header).passes h
  rw [hfixed.rest_eq, hmore.rest_eq, List.length_append, List.length_append]
  omega

variable {step : Reader (Option α)}

theorem Unfolds.length_le (hstep : step.HeaderFirst) (h : Unfolds step cursor rows ending) :
    Header.minLength * rows.length ≤ cursor.rest.length := by
  induction h with
  | done => exact Nat.zero_le _
  | failed => exact Nat.zero_le _
  | last => exact Nat.zero_le _
  | row _ hrow _ ih =>
      have hless := minLength_of_headerFirst hstep hrow
      rw [List.length_cons, Nat.mul_succ]
      omega

/-- A step for every 22 bytes is enough. -/
theorem unfolds_unfold (hstep : step.HeaderFirst)
    (hfuel : cursor.rest.length ≤ Header.minLength * fuel) :
    Unfolds step cursor (unfold step fuel cursor).1 (unfold step fuel cursor).2 := by
  induction fuel generalizing cursor with
  | zero =>
      apply Unfolds.done
      exact List.isEmpty_iff.mpr (List.length_eq_zero_iff.mp (Nat.le_zero.mp hfuel))
  | succ fuel ih =>
      rw [unfold]
      split
      · next hend => exact .done hend
      · next hopen =>
          rw [Bool.not_eq_true] at hopen
          split
          · next hfailed => exact .failed hopen hfailed
          · next hlast => exact .last hopen hlast
          · next row next hrow =>
              have hless := minLength_of_headerFirst hstep hrow
              rw [Nat.mul_succ] at hfuel
              exact .row hopen hrow (ih (by omega))

theorem exists_step_of_open (hopen : cursor.isAtEnd = false)
    (hfuel : cursor.rest.length ≤ Header.minLength * fuel) : ∃ less, fuel = less + 1 := by
  apply Nat.exists_eq_succ_of_ne_zero
  rintro rfl
  rw [Cursor.isAtEnd, List.length_eq_zero_iff.mp (Nat.le_zero.mp hfuel)] at hopen
  cases hopen

theorem Unfolds.unfold_eq (hstep : step.HeaderFirst) (h : Unfolds step cursor rows ending)
    (hfuel : cursor.rest.length ≤ Header.minLength * fuel) :
    unfold step fuel cursor = (rows, ending) := by
  induction h generalizing fuel with
  | done hend =>
      cases fuel with
      | zero => rfl
      | succ fuel => rw [unfold, if_pos hend]
  | failed hopen hrun =>
      obtain ⟨fuel, rfl⟩ := exists_step_of_open hopen hfuel
      rw [unfold, hopen, hrun]
      rfl
  | last hopen hrun =>
      obtain ⟨fuel, rfl⟩ := exists_step_of_open hopen hfuel
      rw [unfold, hopen, hrun]
      rfl
  | row hopen hrun _ ih =>
      obtain ⟨fuel, rfl⟩ := exists_step_of_open hopen hfuel
      have hless := minLength_of_headerFirst hstep hrun
      rw [Nat.mul_succ] at hfuel
      have hlater := ih (show _ ≤ Header.minLength * fuel by omega)
      rw [unfold, hopen, hrun]
      show (_ :: (unfold step fuel _).1, (unfold step fuel _).2) = _
      rw [hlater]

theorem unfolds_iff (hstep : step.HeaderFirst) :
    Unfolds step { rest := body } rows ending ↔
      unfold step body.length { rest := body } = (rows, ending) := by
  have hfuel : body.length ≤ Header.minLength * body.length := Nat.le_mul_of_pos_left _ (by decide)
  constructor
  · exact fun h => h.unfold_eq hstep hfuel
  · intro h
    have hread : Unfolds step { rest := body } _ _ := unfolds_unfold hstep hfuel
    rwa [h] at hread

/-- Reading rows one after the other ends on every body, and no body has more rows than its length allows. -/
structure Reader.Exhausts (step : Reader (Option α)) : Prop where
  unfolds_iff : ∀ body rows ending, Unfolds step { rest := body } rows ending ↔
    unfold step body.length { rest := body } = (rows, ending)
  length_le : ∀ body, (unfold step body.length { rest := body }).1.length ≤ body.length / 22

theorem exhausts_of_headerFirst (hstep : step.HeaderFirst) : step.Exhausts where
  unfolds_iff _ _ _ := unfolds_iff hstep
  length_le body := by
    rw [Nat.le_div_iff_mul_le (by decide), Nat.mul_comm]
    exact ((unfolds_iff hstep).mpr rfl).length_le hstep

theorem headerFirst_readListedRow (isStream : Bool) :
    (CommandLine.readListedRow isStream).HeaderFirst := by
  unfold CommandLine.readListedRow
  refine ⟨_, fun header => ?_, rfl⟩
  split
  · exact local_pure none
  · exact (local_readKeyed header).bind fun _ => local_pure _

/-- A row that is read, with its key or without, takes its own bytes and depends on no others; so all loops
over the rows of a body come to their end. -/
theorem rows_taken_exactly :
    readWhole.TakesRows Prod.fst ∧ readAnonymous.TakesRows Prod.fst ∧
      Batch.Tally.readRow.Exhausts ∧ RecordSet.readRow.Exhausts ∧
      ∀ isStream, (CommandLine.readListedRow isStream).Exhausts :=
  ⟨takesRows_readWhole, takesRows_readAnonymous, exhausts_of_headerFirst Batch.headerFirst_readRow,
    exhausts_of_headerFirst RecordSet.headerFirst_readRow,
    fun isStream => exhausts_of_headerFirst (headerFirst_readListedRow isStream)⟩

/-- A row behind two bytes and in front of one. -/
theorem bare_row_taken_exactly :
    ∃ row final parts, readAnonymous.run.run (.inside ([9, 9] ++ bareRow 3 0 7 0 ++ [1]) 2) =
        (.ok row, final) ∧ row.1.index = 3 ∧ final.position = 24 ∧
      TakesRow readAnonymous row.1 row ([9, 9] ++ bareRow 3 0 7 0 ++ [1]) 2 final parts := by
  obtain ⟨row, final, hread, hindex, hposition⟩ : ∃ row final,
      readAnonymous.run.run (.inside ([9, 9] ++ bareRow 3 0 7 0 ++ [1]) 2) = (.ok row, final) ∧
        row.1.index = 3 ∧ final.position = 24 :=
    ⟨_, _, rfl, rfl, rfl⟩
  obtain ⟨parts, htakes⟩ := rows_taken_exactly.2.1 _ _ _ _ hread
  exact ⟨row, final, parts, hread, hindex, hposition, htakes⟩

end RecordGateway.Row
