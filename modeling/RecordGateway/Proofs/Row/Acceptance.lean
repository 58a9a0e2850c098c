import RecordGateway.Bytes.BigEndian.Lemmas
import RecordGateway.Proofs.Row.Extent

/-!
What the readers of a row accept. A reader that succeeds has passed bytes (`Cursor.Passes`), and the bytes
have the form of what it read: key fields and bins alike are blocks, a size in front of what it counts. Of
a key it is only the fields that are seen here, and whoever reads them or skips them passes the same blocks
(`passes_of_skipKey`, `passes_of_readKey`); of a bin the name and the value too (`passes_of_readBins`).
-/

namespace RecordGateway.Row

variable {α β : Type} {cursor middle final : Cursor} {front back : Bytes}

/-! ### Places -/

/-- The bytes that lie between a place and a later one. -/
structure Cursor.Passes (cursor : Cursor) (bytes : Bytes) (final : Cursor) : Prop where
  rest_eq : cursor.rest = bytes ++ final.rest
  position_eq : final.position = cursor.position + bytes.length

theorem Cursor.passes_refl (cursor : Cursor) : cursor.Passes [] cursor :=
  ⟨rfl, rfl⟩

theorem Cursor.Passes.trans (hfront : cursor.Passes front middle) (hback : middle.Passes back final) :
    cursor.Passes (front ++ back) final := by
  constructor
  · rw [hfront.rest_eq, hback.rest_eq, List.append_assoc]
  · rw [hback.position_eq, hfront.position_eq, List.length_append, Nat.add_assoc]

/-- A reader that takes its bytes wherever they stand passes them. -/
theorem Reader.Local.passes {reader : Reader α} {value : α} (hlocal : reader.Local)
    (h : reader.run.run cursor = (.ok value, final)) :
    ∃ bytes, cursor.Passes bytes final ∧ reader.Takes bytes value := by
  obtain ⟨bytes, hrest, htakes⟩ := hlocal _ _ _ h
  have hwhole := htakes final.rest cursor.position
  rw [← hrest] at hwhole
  have hfinal : final = ⟨final.rest, cursor.position + bytes.length⟩ :=
    congrArg Prod.snd (h.symm.trans hwhole)
  exact ⟨bytes, ⟨hrest, congrArg Cursor.position hfinal⟩, htakes⟩

/-! ### Numbers and runs of bytes -/

theorem passes_of_readBytes {count : Nat} {taken : Bytes}
    (h : (readBytes count).run.run cursor = (.ok taken, final)) :
    taken.length = count ∧ cursor.Passes taken final := by
  by_cases hshort : (cursor.rest.take count).length < count
  · rw [run_readBytes_of_error (if_pos hshort)] at h
    cases congrArg Prod.fst h
  · rw [run_readBytes_of_ok (if_neg hshort)] at h
    obtain ⟨htaken, rfl⟩ := Prod.mk.inj h
    obtain rfl := Except.ok.inj htaken
    have hlength : (cursor.rest.take count).length = count := by
      rw [List.length_take] at hshort ⊢
      omega
    exact ⟨hlength, (List.take_append_drop ..).symm, by rw [hlength]⟩

theorem passes_of_skip {count : Nat} (h : (skip count).run.run cursor = (.ok (), final)) :
    ∃ passed, passed.length = count ∧ cursor.Passes passed final := by
  obtain ⟨passed, middle, hread, hnothing⟩ := run_bind_ok_iff.mp h
  obtain ⟨-, rfl⟩ := Prod.mk.inj hnothing
  exact ⟨passed, passes_of_readBytes hread⟩

theorem passes_of_readNat {width n : Nat} (h : (readNat width).run.run cursor = (.ok n, final)) :
    n < 256 ^ width ∧ cursor.Passes (BigEndian.encode width n) final := by
  obtain ⟨bytes, middle, hread, hvalue⟩ := run_bind_ok_iff.mp h
  obtain ⟨hnumber, rfl⟩ := Prod.mk.inj hvalue
  obtain rfl := Except.ok.inj hnumber
  obtain ⟨rfl, hpasses⟩ := passes_of_readBytes hread
  rw [BigEndian.encode_decode]
  exact ⟨BigEndian.decode_lt bytes, hpasses⟩

theorem passes_of_readByte {byte : UInt8} (h : readByte.run.run cursor = (.ok byte, final)) :
    cursor.Passes [byte] final := by
  obtain ⟨n, middle, hread, hvalue⟩ := run_bind_ok_iff.mp h
  obtain ⟨hbyte, rfl⟩ := Prod.mk.inj hvalue
  obtain rfl := Except.ok.inj hbyte
  exact (passes_of_readNat hread).2

theorem passes_of_readUInt16 {n : UInt16} (h : readUInt16.run.run cursor = (.ok n, final)) :
    cursor.Passes (BigEndian.encode 2 n.toNat) final := by
  obtain ⟨read, middle, hread, hvalue⟩ := run_bind_ok_iff.mp h
  obtain ⟨hn, rfl⟩ := Prod.mk.inj hvalue
  obtain rfl := Except.ok.inj hn
  obtain ⟨hsmall, hpasses⟩ := passes_of_readNat hread
  have hsame : read.toUInt16.toNat = read := UInt16.toNat_ofNat_of_lt' hsmall
  rwa [hsame]

theorem passes_of_readUInt32 {n : UInt32} (h : readUInt32.run.run cursor = (.ok n, final)) :
    cursor.Passes (BigEndian.encode 4 n.toNat) final := by
  obtain ⟨read, middle, hread, hvalue⟩ := run_bind_ok_iff.mp h
  obtain ⟨hn, rfl⟩ := Prod.mk.inj hvalue
  obtain rfl := Except.ok.inj hn
  obtain ⟨hsmall, hpasses⟩ := passes_of_readNat hread
  have hsame : read.toUInt32.toNat = read := UInt32.toNat_ofNat_of_lt' hsmall
  rwa [hsame]

/-- What is decided from bytes that have been read takes no more of them. -/
theorem run_lift_bind_ok_iff {outcome : Except Fault α} {f : α → Reader β} {result : β} :
    (liftM outcome >>= f).run.run cursor = (.ok result, final) ↔
      ∃ value, outcome = .ok value ∧ (f value).run.run cursor = (.ok result, final) := by
  cases outcome with
  | error fault =>
      constructor
      · intro h
        cases congrArg Prod.fst h
      · rintro ⟨value, hvalue, -⟩
        cases hvalue
  | ok given =>
      constructor
      · exact fun h => ⟨given, rfl, h⟩
      · rintro ⟨value, hvalue, h⟩
        obtain rfl := Except.ok.inj hvalue
        exact h

/-- Reading goes on behind a check that has refused nothing. -/
theorem run_guard_ok_iff {refused : Prop} [Decidable refused] {fault : Fault} {go : Unit → Reader α}
    {value : α} :
    (if refused then throw fault >>= go else go ()).run.run cursor = (.ok value, final) ↔
      ¬ refused ∧ (go ()).run.run cursor = (.ok value, final) := by
  by_cases hrefused : refused
  · rw [if_pos hrefused]
    constructor
    · intro h
      obtain ⟨given, middle, hthrow, -⟩ := run_bind_ok_iff.mp h
      cases congrArg Prod.fst hthrow
    · exact fun h => absurd hrefused h.1
  · rw [if_neg hrefused]
    exact (and_iff_right hrefused).symm

/-! ### Blocks -/

/-- As many bytes as a size can count. -/
structure Block where
  content : Bytes
  fits : content.length < 2 ^ 32

/-- The bytes with their size in front. -/
def Block.encode (block : Block) : Bytes :=
  BigEndian.encode 4 block.content.length ++ block.content

@[simp] theorem Block.length_encode (block : Block) :
    block.encode.length = 4 + block.content.length := by
  rw [Block.encode, List.length_append, BigEndian.length_encode]

theorem length_blocks (blocks : List Block) :
    (blocks.flatMap Block.encode).length =
      (blocks.map fun block => 4 + block.content.length).sum := by
  simp [List.length_flatMap]

theorem passes_block {size : UInt32} {content : Bytes}
    (hsize : cursor.Passes (BigEndian.encode 4 size.toNat) middle)
    (hlength : content.length = size.toNat) (hcontent : middle.Passes content final) :
    ∃ block : Block, block.content = content ∧ cursor.Passes block.encode final := by
  have hfits : content.length < 2 ^ 32 := hlength ▸ size.toNat_lt
  rw [← hlength] at hsize
  exact ⟨⟨content, hfits⟩, rfl, hsize.trans hcontent⟩

/-! ### Key fields -/

theorem passes_of_skipKey {count : Nat} (h : (skipKey count).run.run cursor = (.ok (), final)) :
    ∃ fields : List Block, fields.length = count ∧ cursor.Passes (fields.flatMap Block.encode) final := by
  induction count generalizing cursor with
  | zero =>
      obtain ⟨-, rfl⟩ := Prod.mk.inj h
      exact ⟨[], rfl, cursor.passes_refl⟩
  | succ count ih =>
      rw [skipKey] at h
      obtain ⟨size, behind, hsize, h⟩ := run_bind_ok_iff.mp h
      obtain ⟨_, next, hskip, h⟩ := run_bind_ok_iff.mp h
      obtain ⟨field, hlength, hfield⟩ := passes_of_skip hskip
      obtain ⟨fields, rfl, hfields⟩ := ih h
      obtain ⟨first, -, hfirst⟩ := passes_block (passes_of_readUInt32 hsize) hlength hfield
      exact ⟨first :: fields, rfl, hfirst.trans hfields⟩

theorem passes_of_readKeyFrom {count : Nat} {echo key : KeyEcho}
    (h : (readKeyFrom echo count).run.run cursor = (.ok key, final)) :
    ∃ fields : List Block, fields.length = count ∧ cursor.Passes (fields.flatMap Block.encode) final := by
  induction count generalizing cursor echo with
  | zero =>
      obtain ⟨-, rfl⟩ := Prod.mk.inj h
      exact ⟨[], rfl, cursor.passes_refl⟩
  | succ count ih =>
      rw [readKeyFrom] at h
      obtain ⟨size, behind, hsize, h⟩ := run_bind_ok_iff.mp h
      obtain ⟨hsome, h⟩ := run_guard_ok_iff.mp h
      obtain ⟨type, typed, htype, h⟩ := run_bind_ok_iff.mp h
      obtain ⟨data, next, hdata, h⟩ := run_bind_ok_iff.mp h
      obtain ⟨later, -, h⟩ := run_lift_bind_ok_iff.mp h
      obtain ⟨hlength, hdata⟩ := passes_of_readBytes hdata
      obtain ⟨fields, rfl, hfields⟩ := ih h
      have hpositive : 0 < size.toNat := by
        apply Nat.pos_of_ne_zero
        intro hzero
        exact hsome (UInt32.toNat_inj.mp hzero)
      have hcontent : (type :: data).length = size.toNat := by
        rw [List.length_cons]
        omega
      obtain ⟨first, -, hfirst⟩ := passes_block (passes_of_readUInt32 hsize) hcontent
        ((passes_of_readByte htype).trans hdata)
      exact ⟨first :: fields, rfl, hfirst.trans hfields⟩

theorem passes_of_readKey {count : Nat} {key : KeyEcho}
    (h : (readKey count).run.run cursor = (.ok key, final)) :
    ∃ fields : List Block, fields.length = count ∧ cursor.Passes (fields.flatMap Block.encode) final :=
  passes_of_readKeyFrom h

/-! ### Bins -/

/-- What the content of a bin says: behind four bytes of description, of which one is the type of the value
and one the length of the name, the name and then the value. -/
inductive SaysBin : Bytes → String × Value → Prop where
  | mk {operation type version nameLength : UInt8} {name : String} {data : Bytes} {value : Value} :
      nameLength.toNat = (utf8 name).length → Value.ofParticle type data = .ok value →
      SaysBin (operation :: type :: version :: nameLength :: (utf8 name ++ data)) (name, value)

theorem readText_eq_ok_iff {what text : String} {bytes : Bytes} :
    readText what bytes = .ok text ↔ utf8 text = bytes := by
  rw [readText]
  constructor
  · intro h
    split at h
    · next given hdecode =>
        obtain rfl := Except.ok.inj h
        exact Utf8.utf8_of_decode? hdecode
    · cases h
  · rintro rfl
    rw [Utf8.decode?_utf8]

theorem passes_of_readBin {bin : String × Value}
    (h : readBin.run.run cursor = (.ok bin, final)) :
    ∃ block : Block, SaysBin block.content bin ∧ cursor.Passes block.encode final := by
  unfold readBin at h
  obtain ⟨size, behind, hsize, h⟩ := run_bind_ok_iff.mp h
  obtain ⟨_, described, hoperation, h⟩ := run_bind_ok_iff.mp h
  obtain ⟨type, typed, htype, h⟩ := run_bind_ok_iff.mp h
  obtain ⟨_, versioned, hversion, h⟩ := run_bind_ok_iff.mp h
  obtain ⟨nameLength, measured, hmeasure, h⟩ := run_bind_ok_iff.mp h
  obtain ⟨henough, h⟩ := run_guard_ok_iff.mp h
  obtain ⟨spelled, named, hname, h⟩ := run_bind_ok_iff.mp h
  obtain ⟨name, htext, h⟩ := run_lift_bind_ok_iff.mp h
  obtain ⟨data, next, hdata, h⟩ := run_bind_ok_iff.mp h
  obtain ⟨value, hvalue, h⟩ := run_lift_bind_ok_iff.mp h
  obtain ⟨hbin, rfl⟩ := Prod.mk.inj h
  obtain rfl := Except.ok.inj hbin
  obtain rfl := readText_eq_ok_iff.mp htext
  obtain ⟨operation, hone, hoperation⟩ := passes_of_skip hoperation
  obtain ⟨version, hother, hversion⟩ := passes_of_skip hversion
  obtain ⟨operation, rfl⟩ := List.length_eq_one_iff.mp hone
  obtain ⟨version, rfl⟩ := List.length_eq_one_iff.mp hother
  obtain ⟨hnameLength, hname⟩ := passes_of_readBytes hname
  obtain ⟨hdataLength, hdata⟩ := passes_of_readBytes hdata
  have hcontent := hoperation.trans ((passes_of_readByte htype).trans (hversion.trans
    ((passes_of_readByte hmeasure).trans (hname.trans hdata))))
  have hlength : ([operation] ++ ([type] ++ ([version] ++ ([nameLength] ++ (utf8 name ++ data))))).length =
      size.toNat := by
    simp only [List.length_append, List.length_singleton]
    omega
  obtain ⟨block, hblock, hpasses⟩ := passes_block (passes_of_readUInt32 hsize) hlength hcontent
  refine ⟨block, ?_, hpasses⟩
  rw [hblock]
  exact .mk hnameLength.symm hvalue

/-- A record is read as the values of its bins, one pushed after the other. -/
theorem passes_of_readBinsInto {count : Nat} {start record : Record}
    (h : (readBinsInto start count).run.run cursor = (.ok record, final)) :
    ∃ (blocks : List Block) (bins : List (String × Value)), blocks.length = count ∧
      List.Forall₂ SaysBin (blocks.map Block.content) bins ∧
      cursor.Passes (blocks.flatMap Block.encode) final ∧
      record = bins.foldl (fun record bin => record.pushBin bin.1 bin.2) start := by
  induction count generalizing cursor start with
  | zero =>
      obtain ⟨hrecord, rfl⟩ := Prod.mk.inj h
      obtain rfl := Except.ok.inj hrecord
      exact ⟨[], [], rfl, .nil, cursor.passes_refl, rfl⟩
  | succ count ih =>
      rw [readBinsInto] at h
      obtain ⟨bin, next, hbin, h⟩ := run_bind_ok_iff.mp h
      obtain ⟨block, hsays, hblock⟩ := passes_of_readBin hbin
      obtain ⟨blocks, bins, rfl, hall, hblocks, hrecord⟩ := ih h
      exact ⟨block :: blocks, bin :: bins, rfl, .cons hsays hall, hblock.trans hblocks, hrecord⟩

/-! ### The fixed part -/

/-- The fixed part of a row is as long as it says, and never shorter than what is known of it. -/
theorem passes_of_readHeader {header : Header} (h : Header.read.run.run cursor = (.ok header, final)) :
    ∃ fixed, fixed.length = header.length.toNat ∧ Header.minLength ≤ fixed.length ∧
      cursor.Passes fixed final := by
  have hknown (more : Nat) :
      1 + (1 + (1 + (1 + (1 + (1 + (4 + (4 + (4 + (2 + (2 + more)))))))))) = Header.minLength + more := by
    rw [Header.minLength]
    omega
  unfold Header.read at h
  obtain ⟨length, _, hlength, h⟩ := run_bind_ok_iff.mp h
  obtain ⟨hlong, h⟩ := run_guard_ok_iff.mp h
  obtain ⟨info1, _, hinfo1, h⟩ := run_bind_ok_iff.mp h
  obtain ⟨info2, _, hinfo2, h⟩ := run_bind_ok_iff.mp h
  obtain ⟨info3, _, hinfo3, h⟩ := run_bind_ok_iff.mp h
  obtain ⟨_, _, hunused, h⟩ := run_bind_ok_iff.mp h
  obtain ⟨code, _, hcode, h⟩ := run_bind_ok_iff.mp h
  obtain ⟨generation, _, hgeneration, h⟩ := run_bind_ok_iff.mp h
  obtain ⟨expiration, _, hexpiration, h⟩ := run_bind_ok_iff.mp h
  obtain ⟨index, _, hindex, h⟩ := run_bind_ok_iff.mp h
  obtain ⟨fieldCount, _, hfieldCount, h⟩ := run_bind_ok_iff.mp h
  obtain ⟨opCount, _, hopCount, h⟩ := run_bind_ok_iff.mp h
  obtain ⟨_, _, hpadding, h⟩ := run_bind_ok_iff.mp h
  obtain ⟨hheader, rfl⟩ := Prod.mk.inj h
  obtain rfl := Except.ok.inj hheader
  obtain ⟨unused, hone, hunused⟩ := passes_of_skip hunused
  obtain ⟨padding, hmore, hpadding⟩ := passes_of_skip hpadding
  have hpasses := (passes_of_readByte hlength).trans ((passes_of_readByte hinfo1).trans
    ((passes_of_readByte hinfo2).trans ((passes_of_readByte hinfo3).trans (hunused.trans
      ((passes_of_readByte hcode).trans ((passes_of_readUInt32 hgeneration).trans
        ((passes_of_readUInt32 hexpiration).trans ((passes_of_readUInt32 hindex).trans
          ((passes_of_readUInt16 hfieldCount).trans ((passes_of_readUInt16 hopCount).trans
            hpadding))))))))))
  refine ⟨_, ?_, ?_, hpasses⟩
  · simp only [List.length_append, List.length_singleton, BigEndian.length_encode, hone, hknown, hmore]
    exact Nat.add_sub_cancel' (Nat.le_of_not_lt hlong)
  · simp only [List.length_append, List.length_singleton, BigEndian.length_encode, hone, hknown]
    exact Nat.le_add_right ..

end RecordGateway.Row
