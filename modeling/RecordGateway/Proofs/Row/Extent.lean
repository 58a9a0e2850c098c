import RecordGateway.Row.Bins

/-!
How far the reading of a row goes. A reader that succeeds has taken some of the bytes before it, and
neither the bytes after them nor the place where they stand have any part in what it read
(`Reader.Local`). So bytes that spell a row when they stand alone spell it inside every body
(`Spells.takes`), and a body of such bytes is read as the list of its rows (`unfold_spelled`).
-/

namespace RecordGateway.Row

variable {α β : Type}

/-- The reader takes exactly these bytes for a value, whatever follows them. -/
def Reader.Takes (reader : Reader α) (bytes : Bytes) (value : α) : Prop :=
  ∀ rest position, reader.run.run ⟨bytes ++ rest, position⟩ =
    (.ok value, ⟨rest, position + bytes.length⟩)

/-- A reader that succeeds has taken some bytes for what it read. -/
def Reader.Local (reader : Reader α) : Prop :=
  ∀ cursor value final, reader.run.run cursor = (.ok value, final) →
    ∃ bytes, cursor.rest = bytes ++ final.rest ∧ reader.Takes bytes value

theorem run_bind_eq (reader : Reader α) (f : α → Reader β) (cursor : Cursor) :
    (reader >>= f).run.run cursor =
      match reader.run.run cursor with
      | (.ok value, middle) => (f value).run.run middle
      | (.error fault, middle) => (.error fault, middle) := by
  rw [ExceptT.run_bind, StateT.run_bind]
  rcases reader.run.run cursor with ⟨fault | value, middle⟩ <;> rfl

theorem run_bind_ok_iff {reader : Reader α} {f : α → Reader β} {cursor final : Cursor} {result : β} :
    (reader >>= f).run.run cursor = (.ok result, final) ↔
      ∃ value middle, reader.run.run cursor = (.ok value, middle) ∧
        (f value).run.run middle = (.ok result, final) := by
  rw [run_bind_eq]
  rcases reader.run.run cursor with ⟨fault | value, middle⟩
  · constructor
    · intro h
      cases congrArg Prod.fst h
    · rintro ⟨value, middle', h, _⟩
      cases congrArg Prod.fst h
  · constructor
    · exact fun h => ⟨value, middle, rfl, h⟩
    · rintro ⟨value', middle', h, hf⟩
      obtain ⟨hvalue, rfl⟩ := Prod.mk.inj h
      obtain rfl := Except.ok.inj hvalue
      exact hf

theorem Reader.Takes.bind {reader : Reader α} {f : α → Reader β} {front back : Bytes} {value : α}
    {result : β} (hfront : reader.Takes front value) (hback : (f value).Takes back result) :
    (reader >>= f).Takes (front ++ back) result := by
  intro rest position
  rw [run_bind_ok_iff]
  refine ⟨value, ⟨back ++ rest, position + front.length⟩, ?_, ?_⟩
  · rw [List.append_assoc]
    exact hfront _ _
  · rw [hback, List.length_append, Nat.add_assoc]

theorem takes_pure (value : α) : (pure value : Reader α).Takes [] value :=
  fun _ _ => rfl

theorem local_pure (value : α) : (pure value : Reader α).Local := by
  intro cursor result final h
  obtain ⟨hvalue, rfl⟩ := Prod.mk.inj (show (Except.ok value, cursor) = (.ok result, final) from h)
  obtain rfl := Except.ok.inj hvalue
  exact ⟨[], rfl, takes_pure value⟩

theorem local_throw (fault : Fault) : (throw fault : Reader α).Local := by
  intro cursor result final h
  cases congrArg Prod.fst (show (Except.error fault, cursor) = (.ok result, final) from h)

theorem local_lift (outcome : Except Fault α) : (liftM outcome : Reader α).Local := by
  cases outcome with
  | error fault => exact local_throw fault
  | ok value => exact local_pure value

theorem Reader.Local.bind {reader : Reader α} {f : α → Reader β} (hreader : reader.Local)
    (hf : ∀ value, (f value).Local) : (reader >>= f).Local := by
  intro cursor result final h
  obtain ⟨value, middle, hfirst, hsecond⟩ := run_bind_ok_iff.mp h
  obtain ⟨front, hrest, hfront⟩ := hreader _ _ _ hfirst
  obtain ⟨back, hmiddle, hback⟩ := hf value _ _ _ hsecond
  exact ⟨front ++ back, by rw [hrest, hmiddle, List.append_assoc], hfront.bind hback⟩

theorem Reader.Local.map {reader : Reader α} (hreader : reader.Local) (f : α → β) :
    (f <$> reader).Local := by
  rw [map_eq_pure_bind]
  exact hreader.bind fun value => local_pure (f value)

theorem run_readBytes_of_ok {count : Nat} {cursor next : Cursor} {taken : Bytes}
    (htake : cursor.take count = .ok (taken, next)) :
    (readBytes count).run.run cursor = (.ok taken, next) := by
  simp [readBytes, StateT.run, htake]

theorem run_readBytes_of_error {count : Nat} {cursor : Cursor} {fault : Fault}
    (htake : cursor.take count = .error fault) :
    (readBytes count).run.run cursor = (.error fault, cursor) := by
  simp [readBytes, StateT.run, htake]

theorem takes_readBytes (bytes : Bytes) : (readBytes bytes.length).Takes bytes bytes := by
  intro rest position
  exact run_readBytes_of_ok (by simp [Cursor.take])

theorem local_readBytes (count : Nat) : (readBytes count).Local := by
  intro cursor result final h
  by_cases hshort : (cursor.rest.take count).length < count
  · rw [run_readBytes_of_error (if_pos hshort)] at h
    cases congrArg Prod.fst h
  · rw [run_readBytes_of_ok (if_neg hshort)] at h
    obtain ⟨hresult, rfl⟩ := Prod.mk.inj h
    obtain rfl := Except.ok.inj hresult
    have hlength : (cursor.rest.take count).length = count :=
      Nat.le_antisymm (List.length_take_le ..) (Nat.not_lt.mp hshort)
    refine ⟨cursor.rest.take count, (List.take_append_drop ..).symm, ?_⟩
    simpa only [hlength] using takes_readBytes (cursor.rest.take count)

theorem local_skip (count : Nat) : (skip count).Local :=
  (local_readBytes count).map _

theorem local_readNat (width : Nat) : (readNat width).Local :=
  (local_readBytes width).bind fun _ => local_pure _

theorem local_readByte : readByte.Local :=
  (local_readNat 1).bind fun _ => local_pure _

theorem local_readUInt16 : readUInt16.Local :=
  (local_readNat 2).bind fun _ => local_pure _

theorem local_readUInt32 : readUInt32.Local :=
  (local_readNat 4).bind fun _ => local_pure _

theorem local_skipKey (count : Nat) : (skipKey count).Local := by
  induction count with
  | zero => exact local_pure _
  | succ count ih =>
      rw [skipKey]
      refine local_readUInt32.bind fun size => ?_
      exact (local_skip _).bind fun _ => ih

/-- A check that refuses some input before reading goes on. -/
theorem Reader.Local.guard {refused : Prop} [Decidable refused] {fault : Fault}
    {go : Unit → Reader α} (hgo : (go ()).Local) :
    (if refused then throw fault >>= go else go ()).Local := by
  split
  · intro cursor result final h
    obtain ⟨value, middle, hthrow, _⟩ := run_bind_ok_iff.mp h
    cases congrArg Prod.fst (show (Except.error fault, cursor) = (.ok value, middle) from hthrow)
  · exact hgo

theorem local_readHeader : Header.read.Local := by
  unfold Header.read
  refine local_readByte.bind fun length => Reader.Local.guard ?_
  refine local_readByte.bind fun info1 => ?_
  refine local_readByte.bind fun info2 => ?_
  refine local_readByte.bind fun info3 => ?_
  refine (local_skip 1).bind fun _ => ?_
  refine local_readByte.bind fun code => ?_
  refine local_readUInt32.bind fun generation => ?_
  refine local_readUInt32.bind fun expiration => ?_
  refine local_readUInt32.bind fun index => ?_
  refine local_readUInt16.bind fun fieldCount => ?_
  refine local_readUInt16.bind fun opCount => ?_
  exact (local_skip _).bind fun _ => local_pure _

theorem local_readBin : readBin.Local := by
  unfold readBin
  refine local_readUInt32.bind fun size => ?_
  refine (local_skip 1).bind fun _ => ?_
  refine local_readByte.bind fun type => ?_
  refine (local_skip 1).bind fun _ => ?_
  refine local_readByte.bind fun nameLength => Reader.Local.guard ?_
  refine (local_readBytes _).bind fun name => ?_
  refine (local_lift _).bind fun name => ?_
  refine (local_readBytes _).bind fun data => ?_
  exact (local_lift _).bind fun value => local_pure (name, value)

theorem local_readBinsInto (record : Record) (count : Nat) : (readBinsInto record count).Local := by
  induction count generalizing record with
  | zero => exact local_pure record
  | succ count ih => exact local_readBin.bind fun bin => ih _

theorem local_readRecord (header : Header) : (readRecord header).Local :=
  local_readBinsInto _ _

theorem local_readKeyFrom (echo : KeyEcho) (count : Nat) : (readKeyFrom echo count).Local := by
  induction count generalizing echo with
  | zero => exact local_pure echo
  | succ count ih =>
      rw [readKeyFrom]
      refine local_readUInt32.bind fun size => Reader.Local.guard ?_
      refine local_readByte.bind fun type => ?_
      refine (local_readBytes _).bind fun data => ?_
      exact (local_lift _).bind fun echo => ih echo

theorem local_readKeyed (header : Header) : (readKeyed header).Local := by
  unfold readKeyed
  refine (local_readKeyFrom {} _).bind fun key => ?_
  exact (local_readRecord header).bind fun record => local_pure (key, record)

/-! ### Rows by their parts -/

theorem run_readAnonymous_ok_iff {cursor final : Cursor} {row : Header × Record} :
    readAnonymous.run.run cursor = (.ok row, final) ↔
      ∃ middle behind, Header.read.run.run cursor = (.ok row.1, middle) ∧
        (skipKey row.1.fieldCount.toNat).run.run middle = (.ok (), behind) ∧
        (readRecord row.1).run.run behind = (.ok row.2, final) := by
  unfold readAnonymous
  constructor
  · intro h
    obtain ⟨header, middle, hheader, h⟩ := run_bind_ok_iff.mp h
    obtain ⟨_, behind, hskip, h⟩ := run_bind_ok_iff.mp h
    obtain ⟨record, ended, hrecord, h⟩ := run_bind_ok_iff.mp h
    obtain ⟨hrow, rfl⟩ := Prod.mk.inj h
    obtain rfl := Except.ok.inj hrow
    exact ⟨middle, behind, hheader, hskip, hrecord⟩
  · rintro ⟨middle, behind, hheader, hskip, hrecord⟩
    refine run_bind_ok_iff.mpr ⟨row.1, middle, hheader, ?_⟩
    refine run_bind_ok_iff.mpr ⟨(), behind, hskip, ?_⟩
    exact run_bind_ok_iff.mpr ⟨row.2, final, hrecord, rfl⟩

theorem run_readKeyed_ok_iff {cursor final : Cursor} {header : Header} {row : KeyEcho × Record} :
    (readKeyed header).run.run cursor = (.ok row, final) ↔
      ∃ behind, (readKey header.fieldCount.toNat).run.run cursor = (.ok row.1, behind) ∧
        (readRecord header).run.run behind = (.ok row.2, final) := by
  unfold readKeyed
  constructor
  · intro h
    obtain ⟨key, behind, hkey, h⟩ := run_bind_ok_iff.mp h
    obtain ⟨record, ended, hrecord, h⟩ := run_bind_ok_iff.mp h
    obtain ⟨hrow, rfl⟩ := Prod.mk.inj h
    obtain rfl := Except.ok.inj hrow
    exact ⟨behind, hkey, hrecord⟩
  · rintro ⟨behind, hkey, hrecord⟩
    refine run_bind_ok_iff.mpr ⟨row.1, behind, hkey, ?_⟩
    exact run_bind_ok_iff.mpr ⟨row.2, final, hrecord, rfl⟩

/-! ### Bytes that spell rows -/

/-- The bytes, standing alone, are read to their end as one row. -/
def Spells (step : Reader α) (bytes : Bytes) (row : α) : Prop :=
  step.run.run { rest := bytes } = (.ok row, { rest := [], position := bytes.length })

theorem Spells.takes {step : Reader α} (hstep : step.Local) {bytes : Bytes} {row : α}
    (h : Spells step bytes row) : step.Takes bytes row := by
  obtain ⟨taken, hbytes, htakes⟩ := hstep _ _ _ h
  obtain rfl : bytes = taken := by simpa using hbytes
  exact htakes

theorem Reader.Takes.spells {step : Reader α} {bytes : Bytes} {row : α} (h : step.Takes bytes row) :
    Spells step bytes row := by
  have halone := h [] 0
  rwa [List.append_nil, Nat.zero_add] at halone

/-- The bytes are those of rows, one after the other. -/
inductive SpellsAll (step : Reader (Option α)) : Bytes → List α → Prop where
  | nil : SpellsAll step [] []
  | cons {front back : Bytes} {row : α} {rows : List α} :
      Spells step front (some row) → SpellsAll step back rows →
        SpellsAll step (front ++ back) (row :: rows)

theorem Spells.single {step : Reader (Option α)} {bytes : Bytes} {row : α}
    (h : Spells step bytes (some row)) : SpellsAll step bytes [row] := by
  rw [← List.append_nil bytes]
  exact .cons h .nil

/-- No row is spelled by no bytes at all. -/
def Reader.Needy (step : Reader α) : Prop :=
  ∀ row, ¬ Spells step [] row

/-- The reader begins with the fixed part of a row. -/
def Reader.HeaderFirst (reader : Reader α) : Prop :=
  ∃ behind : Header → Reader α, (∀ header, (behind header).Local) ∧ reader = Header.read >>= behind

theorem local_of_headerFirst {reader : Reader α} (h : reader.HeaderFirst) : reader.Local := by
  obtain ⟨behind, hbehind, rfl⟩ := h
  exact local_readHeader.bind hbehind

theorem needy_of_headerFirst {reader : Reader α} (h : reader.HeaderFirst) : reader.Needy := by
  obtain ⟨behind, -, rfl⟩ := h
  intro row hrow
  cases congrArg Prod.fst hrow

theorem SpellsAll.length_le {step : Reader (Option α)} (hneedy : step.Needy) {bytes : Bytes}
    {rows : List α} (h : SpellsAll step bytes rows) : rows.length ≤ bytes.length := by
  induction h with
  | nil => exact Nat.le_refl 0
  | @cons front back row rows hrow _ ih =>
      have hfront : 0 < front.length :=
        List.length_pos_iff.mpr fun hnil => hneedy _ (hnil ▸ hrow)
      rw [List.length_cons, List.length_append]
      omega

theorem unfold_done (step : Reader (Option α)) (fuel position : Nat) :
    unfold step fuel ⟨[], position⟩ = ([], .ok false) := by
  cases fuel <;> rfl

theorem unfold_row {step : Reader (Option α)} {front : Bytes} {row : α}
    (htakes : step.Takes front (some row)) (hfront : front ≠ []) (fuel position : Nat)
    (rest : Bytes) :
    unfold step (fuel + 1) ⟨front ++ rest, position⟩ =
      (row :: (unfold step fuel ⟨rest, position + front.length⟩).1,
        (unfold step fuel ⟨rest, position + front.length⟩).2) := by
  have hopen : (⟨front ++ rest, position⟩ : Cursor).isAtEnd = false := by
    simp [Cursor.isAtEnd, hfront]
  rw [unfold, hopen, htakes]
  rfl

/-- A body that begins with rows is read as its rows and what the rest of it is read as. -/
theorem unfold_spelled {step : Reader (Option α)} (hstep : step.Local) (hneedy : step.Needy)
    {bytes : Bytes} {rows : List α} (hrows : SpellsAll step bytes rows) (fuel position : Nat)
    (rest : Bytes) :
    unfold step (rows.length + fuel) ⟨bytes ++ rest, position⟩ =
      (rows ++ (unfold step fuel ⟨rest, position + bytes.length⟩).1,
        (unfold step fuel ⟨rest, position + bytes.length⟩).2) := by
  induction hrows generalizing position with
  | nil => simp
  | @cons front back row rows hrow _ ih =>
      have hfront : front ≠ [] := fun hnil => hneedy _ (hnil ▸ hrow)
      have hfuel : (row :: rows).length + fuel = rows.length + fuel + 1 := by
        rw [List.length_cons]
        omega
      rw [hfuel, List.append_assoc, unfold_row (hrow.takes hstep) hfront, ih, List.length_append,
        Nat.add_assoc]
      rfl

theorem unfold_body {step : Reader (Option α)} (hstep : step.Local) (hneedy : step.Needy)
    {body : Bytes} {rows : List α} (hrows : SpellsAll step body rows) :
    unfold step body.length { rest := body } = (rows, .ok false) := by
  have hfuel := hrows.length_le hneedy
  have hread := unfold_spelled hstep hneedy hrows (body.length - rows.length) 0 []
  rw [Nat.add_sub_cancel' hfuel, List.append_nil, unfold_done, List.append_nil] at hread
  exact hread

/-- Rows before the row after the last are read, and the reading ends there. -/
theorem unfold_last_body {step : Reader (Option α)} (hstep : step.Local) (hneedy : step.Needy)
    {front mark : Bytes} (junk : Bytes) {rows : List α}
    (hrows : SpellsAll step front rows) (hmark : Spells step mark none) :
    unfold step (front ++ (mark ++ junk)).length { rest := front ++ (mark ++ junk) } =
      (rows, .ok true) := by
  have hfuel := hrows.length_le hneedy
  have hsome : mark ≠ [] := by
    rintro rfl
    exact hneedy _ hmark
  obtain ⟨fuel, hlength⟩ : ∃ fuel, (front ++ (mark ++ junk)).length = rows.length + (fuel + 1) := by
    have hmark := List.length_pos_iff.mpr hsome
    refine ⟨(front ++ (mark ++ junk)).length - rows.length - 1, ?_⟩
    rw [List.length_append, List.length_append]
    omega
  have hopen : (⟨mark ++ junk, 0 + front.length⟩ : Cursor).isAtEnd = false := by
    simp [Cursor.isAtEnd, hsome]
  have hend : unfold step (fuel + 1) ⟨mark ++ junk, 0 + front.length⟩ =
      ([], .ok true) := by
    rw [unfold, hopen, hmark.takes hstep]
    rfl
  rw [hlength, unfold_spelled hstep hneedy hrows, hend, List.append_nil]

/-- A row without key and bins. -/
def bareRow (index code generation info3 : UInt8) : Bytes :=
  [22, 0, 0, info3, 0, code, 0, 0, 0, generation, 0, 0, 0, 0, 0, 0, 0, index, 0, 0, 0, 0]

end RecordGateway.Row
