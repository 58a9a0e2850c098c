import RecordGateway.Proofs.Row.Layout

/-!
Rows laid out and read back. A row has a fixed part, key fields and bins. It is read for what it means and to
its end, wherever it stands (`exists_readsBack`), so rows laid out one after the other are read one after
the other and nothing is left (`rows_read_back`).
-/

namespace RecordGateway

open Row

/-- A row as it is laid out. -/
structure RowImage where
  info1 : UInt8
  info2 : UInt8
  info3 : UInt8
  unused : UInt8
  code : UInt8
  generation : UInt32
  expiration : UInt32
  index : UInt32
  /-- What the fixed part has beyond what is known of it. -/
  padding : Bytes
  fields : List FieldImage
  bins : List BinImage
  padding_le : padding.length ≤ 233
  fields_lt : fields.length < 65536
  bins_lt : bins.length < 65536
  fits : ∀ field ∈ fields, field.Fits

namespace RowImage

/-- The fixed part of the row. -/
def header (row : RowImage) : Header where
  length := (Header.minLength + row.padding.length).toUInt8
  info1 := row.info1
  info2 := row.info2
  info3 := row.info3
  code := row.code
  generation := row.generation
  expiration := row.expiration
  index := row.index
  fieldCount := row.fields.length.toUInt16
  opCount := row.bins.length.toUInt16

theorem toNat_fieldCount (row : RowImage) : row.header.fieldCount.toNat = row.fields.length :=
  UInt16.toNat_ofNat_of_lt' row.fields_lt

theorem toNat_opCount (row : RowImage) : row.header.opCount.toNat = row.bins.length :=
  UInt16.toNat_ofNat_of_lt' row.bins_lt

def encodeHeader (row : RowImage) : Bytes :=
  [row.header.length] ++ ([row.info1] ++ ([row.info2] ++ ([row.info3] ++ ([row.unused] ++
    ([row.code] ++ (BigEndian.encode 4 row.generation.toNat ++
      (BigEndian.encode 4 row.expiration.toNat ++ (BigEndian.encode 4 row.index.toNat ++
        (BigEndian.encode 2 row.fields.length ++ (BigEndian.encode 2 row.bins.length ++
          row.padding))))))))))

def encode (row : RowImage) : Bytes :=
  row.encodeHeader ++ (row.fields.flatMap FieldImage.encode ++ row.bins.flatMap BinImage.encode)

-- A fixed part of one byte more than is known, a key with a set, and one bin.
example :
    ({ info1 := 0, info2 := 0, info3 := 0, unused := 0, code := 0, generation := 4
       expiration := 100, index := 0, padding := [9], fields := [.set "demo"]
       bins := [{ name := "i", value := .int (-42), operation := 1, version := 0
                  short := by decide, fits := by decide }]
       padding_le := by decide, fields_lt := by decide, bins_lt := by decide
       fits := by decide } : RowImage).encode =
      [23, 0, 0, 0, 0, 0, 0, 0, 0, 4, 0, 0, 0, 100, 0, 0, 0, 0, 0, 1, 0, 1, 9,
        0, 0, 0, 5, 1, 100, 101, 109, 111,
        0, 0, 0, 13, 1, 1, 0, 1, 105, 255, 255, 255, 255, 255, 255, 255, 214] := by
  decide

/-- The values that come under a name, in the order of their operations. -/
def valuesOf (row : RowImage) (name : String) : List Value :=
  (row.bins.filter fun bin => bin.name == name).map fun bin => bin.value.value

end RowImage

namespace Row

theorem takes_readHeader (row : RowImage) : Header.read.Takes row.encodeHeader row.header := by
  have hlength : row.header.length.toNat = Header.minLength + row.padding.length :=
    UInt8.toNat_ofNat_of_lt' (Nat.lt_of_le_of_lt (Nat.add_le_add_left row.padding_le _) (by decide))
  have hlong : ¬ row.header.length.toNat < Header.minLength := by omega
  have hunused : (skip 1).Takes [row.unused] () := takes_skip rfl
  have hpadding : (skip (row.header.length.toNat - Header.minLength)).Takes row.padding () :=
    takes_skip (by omega)
  refine (takes_readByte row.header.length).bind (.unless ?_ hlong)
  refine (takes_readByte row.info1).bind ((takes_readByte row.info2).bind
    ((takes_readByte row.info3).bind (hunused.bind ((takes_readByte row.code).bind ?_))))
  refine (takes_readUInt32_toNat row.generation).bind ((takes_readUInt32_toNat row.expiration).bind
    ((takes_readUInt32_toNat row.index).bind ?_))
  refine (takes_readUInt16 row.fields_lt).bind ((takes_readUInt16 row.bins_lt).bind ?_)
  exact hpadding.then_pure fun _ => row.header

/-- Reads a row with its fixed part and its key. -/
def readWhole : Reader (Header × KeyEcho × Record) := do
  let header ← Header.read
  let key ← readKey header.fieldCount.toNat
  let record ← readRecord header
  return (header, key, record)

theorem run_readWhole_ok_iff {cursor final : Cursor} {row : Header × KeyEcho × Record} :
    readWhole.run.run cursor = (.ok row, final) ↔
      ∃ middle, Header.read.run.run cursor = (.ok row.1, middle) ∧
        (readKeyed row.1).run.run middle = (.ok row.2, final) := by
  unfold readWhole
  constructor
  · intro h
    obtain ⟨header, middle, hheader, h⟩ := run_bind_ok_iff.mp h
    obtain ⟨key, behind, hkey, h⟩ := run_bind_ok_iff.mp h
    obtain ⟨record, ended, hrecord, h⟩ := run_bind_ok_iff.mp h
    obtain ⟨hrow, rfl⟩ := Prod.mk.inj h
    obtain rfl := Except.ok.inj hrow
    exact ⟨middle, hheader, run_readKeyed_ok_iff.mpr ⟨behind, hkey, hrecord⟩⟩
  · rintro ⟨middle, hheader, hkeyed⟩
    obtain ⟨behind, hkey, hrecord⟩ := run_readKeyed_ok_iff.mp hkeyed
    refine run_bind_ok_iff.mpr ⟨row.1, middle, hheader, ?_⟩
    refine run_bind_ok_iff.mpr ⟨row.2.1, behind, hkey, ?_⟩
    exact run_bind_ok_iff.mpr ⟨row.2.2, final, hrecord, rfl⟩

/-- Reads rows one after the other. -/
def readRows : Nat → Reader (List (Header × KeyEcho × Record))
  | 0 => return []
  | count + 1 => do
    let row ← readWhole
    return row :: (← readRows count)

end Row

/-- What is read of a row is what its image means. The values of a record come in the order of their
names; several that came under one name are a list in the order of their operations. -/
structure RowImage.Means (row : RowImage) (read : Header × KeyEcho × Record) : Prop where
  header_eq : read.1 = row.header
  key_eq : read.2.1 = keyOf row.fields
  generation_eq : read.2.2.generation = row.generation
  expiration_eq : read.2.2.expiration = row.expiration
  ordered : Record.Ordered read.2.2.bins
  get?_eq : ∀ name, read.2.2.get? name = Value.gathered (row.valuesOf name)

/-- An image says all that is read of a row. -/
theorem RowImage.Means.unique {row : RowImage} {one other : Header × KeyEcho × Record}
    (hone : row.Means one) (hother : row.Means other) : one = other := by
  obtain ⟨header, key, bins, generation, expiration⟩ := one
  obtain ⟨header', key', bins', generation', expiration'⟩ := other
  obtain rfl : header = header' := hone.header_eq.trans hother.header_eq.symm
  obtain rfl : key = key' := hone.key_eq.trans hother.key_eq.symm
  obtain rfl : generation = generation' := hone.generation_eq.trans hother.generation_eq.symm
  obtain rfl : expiration = expiration' := hone.expiration_eq.trans hother.expiration_eq.symm
  obtain rfl : bins = bins' := hone.ordered.eq_of_lookup_eq hother.ordered fun name =>
    (hone.get?_eq name).trans (hother.get?_eq name).symm
  rfl

namespace Row

theorem takes_readRecord (row : RowImage) :
    ∃ record, (readRecord row.header).Takes (row.bins.flatMap BinImage.encode) record ∧
      row.Means (row.header, keyOf row.fields, record) := by
  have hsingle : ∀ op ∈ row.bins.map fun bin => (bin.name, bin.value.value), op.2.IsSingle := by
    rw [List.forall_mem_map]
    exact fun bin _ => bin.value.isSingle_value
  have hholds : Record.Holds _ row.generation row.expiration _ := Record.holds_foldl_pushBin hsingle
  refine ⟨_, ?_, rfl, rfl, hholds.generation_eq, hholds.expiration_eq, hholds.ordered, fun name => ?_⟩
  · rw [readRecord, row.toNat_opCount]
    exact takes_readBinsInto _ row.bins
  · rw [hholds.get?_eq, List.filter_map, List.map_map]
    rfl

/-- How a row is read wherever it stands: for what it means and to its end, with its key or without. -/
structure ReadsBack (row : RowImage) (read : Header × KeyEcho × Record) : Prop where
  means : row.Means read
  takes : readWhole.Takes row.encode read
  takes_anonymous : readAnonymous.Takes row.encode (read.1, read.2.2)

theorem exists_readsBack (row : RowImage) : ∃ read, ReadsBack row read := by
  have hkey := takes_readKey row.fits
  have hskip := takes_skipKey row.fits
  rw [← row.toNat_fieldCount] at hkey hskip
  obtain ⟨record, hrecord, hmeans⟩ := takes_readRecord row
  refine ⟨_, hmeans, ?_, ?_⟩
  · exact (takes_readHeader row).bind (hkey.bind (hrecord.then_pure _))
  · exact (takes_readHeader row).bind (hskip.bind (hrecord.then_pure _))

theorem exists_reads (rows : List RowImage) : ∃ reads, List.Forall₂ ReadsBack rows reads := by
  induction rows with
  | nil => exact ⟨[], .nil⟩
  | cons row rows ih =>
      obtain ⟨read, hread⟩ := exists_readsBack row
      obtain ⟨reads, hreads⟩ := ih
      exact ⟨read :: reads, .cons hread hreads⟩

theorem reads_unique {rows : List RowImage} {reads others : List (Header × KeyEcho × Record)}
    (h : List.Forall₂ ReadsBack rows reads) (hothers : List.Forall₂ RowImage.Means rows others) :
    others = reads := by
  induction h generalizing others with
  | nil =>
      cases hothers
      rfl
  | @cons row read rows reads hread _ ih =>
      cases hothers with
      | cons hother hlater => rw [hother.unique hread.means, ih hlater]

theorem takes_readRows {rows : List RowImage} {reads : List (Header × KeyEcho × Record)}
    (h : List.Forall₂ ReadsBack rows reads) :
    (readRows rows.length).Takes (rows.flatMap RowImage.encode) reads := by
  induction h with
  | nil => exact takes_pure []
  | @cons row read rows reads hread _ ih => exact hread.takes.bind (ih.then_pure _)

theorem headerFirst_readWhole : readWhole.HeaderFirst := by
  unfold readWhole
  refine ⟨_, fun header => ?_, rfl⟩
  refine (local_readKeyFrom {} _).bind fun key => ?_
  exact (local_readRecord header).bind fun record => local_pure (header, key, record)

theorem local_readWhole : readWhole.Local :=
  local_of_headerFirst headerFirst_readWhole

theorem needy_readWhole : (some <$> readWhole).Needy := by
  intro row h
  cases congrArg Prod.fst h

theorem spellsAll_readWhole {rows : List RowImage} {reads : List (Header × KeyEcho × Record)}
    (h : List.Forall₂ ReadsBack rows reads) :
    SpellsAll (some <$> readWhole) (rows.flatMap RowImage.encode) reads := by
  induction h with
  | nil => exact .nil
  | @cons row read rows reads hread _ ih =>
      have hrow := hread.takes.then_pure some
      rw [← map_eq_pure_bind] at hrow
      exact .cons hrow.spells ih

/-- Rows laid out one after the other are read back, all of them and to the last byte, one by one or until
the body comes to an end. What the images mean and nothing else is read. -/
theorem rows_read_back (rows : List RowImage) :
    ∃ reads, List.Forall₂ ReadsBack rows reads ∧
      (∀ others, List.Forall₂ RowImage.Means rows others → others = reads) ∧
      Spells (readRows rows.length) (rows.flatMap RowImage.encode) reads ∧
      unfold (some <$> readWhole) (rows.flatMap RowImage.encode).length
        { rest := rows.flatMap RowImage.encode } = (reads, .ok false) := by
  obtain ⟨reads, hreads⟩ := exists_reads rows
  refine ⟨reads, hreads, fun others => reads_unique hreads, (takes_readRows hreads).spells, ?_⟩
  exact unfold_body (local_readWhole.map some) needy_readWhole (spellsAll_readWhole hreads)

end Row
end RecordGateway
