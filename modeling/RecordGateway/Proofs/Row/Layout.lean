import RecordGateway.Bytes.BigEndian.Lemmas
import RecordGateway.Proofs.Row.Bins
import RecordGateway.Proofs.Row.Extent

/-!
The layout of values, key fields and bins. An image says what one of them is made of; it has its bytes
(`encode`) and what it means to a reader. Every part is taken for what it means by the reader of that part,
and by as many bytes as it has (`Reader.Takes`). A size counts other things in each place: that of a field
its type and its data, that of a bin four bytes of description, the name and the value.
-/

namespace RecordGateway

open Row

/-! ### Numbers and runs of bytes -/

namespace Row

variable {α β : Type}

theorem Reader.Takes.then_pure {reader : Reader α} {bytes : Bytes} {value : α} (f : α → β)
    (h : reader.Takes bytes value) : (reader >>= fun value => pure (f value)).Takes bytes (f value) := by
  have hboth := @Reader.Takes.bind _ _ reader (fun value => pure (f value)) _ _ _ _ h
    (takes_pure (f value))
  rwa [List.append_nil] at hboth

theorem Reader.Takes.run_bind {reader : Reader α} {f : α → Reader β} {bytes : Bytes} {value : α}
    (h : reader.Takes bytes value) (rest : Bytes) (position : Nat) :
    (reader >>= f).run.run ⟨bytes ++ rest, position⟩ =
      (f value).run.run ⟨rest, position + bytes.length⟩ := by
  rw [run_bind_eq, h]

/-- A check that lets the reading go on. -/
theorem Reader.Takes.unless {refused : Prop} [Decidable refused] {fault : Fault} {go : Unit → Reader α}
    {bytes : Bytes} {value : α} (hgo : (go ()).Takes bytes value) (hok : ¬ refused) :
    (if refused then throw fault >>= go else go ()).Takes bytes value := by
  rwa [if_neg hok]

theorem takes_lift {outcome : Except Fault α} {value : α} (hok : outcome = .ok value) :
    (liftM outcome : Reader α).Takes [] value := by
  rw [hok]
  exact takes_pure value

theorem takes_readBytes_of_eq {count : Nat} {bytes : Bytes} (hcount : count = bytes.length) :
    (readBytes count).Takes bytes bytes := by
  rw [hcount]
  exact takes_readBytes bytes

theorem takes_skip {count : Nat} {bytes : Bytes} (hcount : count = bytes.length) :
    (skip count).Takes bytes () :=
  (takes_readBytes_of_eq hcount).then_pure fun _ => ()

theorem takes_readNat {width n : Nat} (hsmall : n < 256 ^ width) :
    (readNat width).Takes (BigEndian.encode width n) n := by
  have hread := (takes_readBytes (BigEndian.encode width n)).then_pure BigEndian.decode
  rwa [BigEndian.length_encode, BigEndian.decode_encode width n hsmall] at hread

theorem takes_readByte (byte : UInt8) : readByte.Takes [byte] byte := by
  have hread := (@takes_readNat 1 _ byte.toNat_lt).then_pure Nat.toUInt8
  have hbytes : BigEndian.encode 1 byte.toNat = [byte] := by
    rw [BigEndian.encode, BigEndian.encode, List.nil_append, Nat.toUInt8_eq, UInt8.ofNat_toNat]
  rwa [hbytes, Nat.toUInt8_eq, UInt8.ofNat_toNat] at hread

theorem takes_readUInt16 {n : Nat} (hsmall : n < 65536) :
    readUInt16.Takes (BigEndian.encode 2 n) n.toUInt16 :=
  (@takes_readNat 2 n hsmall).then_pure Nat.toUInt16

theorem takes_readUInt32 {n : Nat} (hsmall : n < 2 ^ 32) :
    readUInt32.Takes (BigEndian.encode 4 n) n.toUInt32 :=
  (@takes_readNat 4 n hsmall).then_pure Nat.toUInt32

theorem takes_readUInt32_toNat (n : UInt32) : readUInt32.Takes (BigEndian.encode 4 n.toNat) n := by
  have hread := takes_readUInt32 n.toNat_lt
  rwa [Nat.toUInt32_eq, UInt32.ofNat_toNat] at hread

end Row

/-! ### Values -/

/-- Whether values of a type stay as the server packs them. -/
def Particle.IsPacked : Particle → Prop
  | .hll | .map | .list | .other _ => True
  | _ => False

/-- A value as it is laid out. -/
inductive ValueImage where
  /-- Nothing, whatever bytes come with it. -/
  | null (bytes : Bytes)
  | int (value : Int64)
  | double (bits : UInt64)
  | string (text : String)
  | blob (bytes : Bytes)
  | bool (byte : UInt8)
  | geoJson (flags : UInt8) (cells : List UInt64) (text : String) (few : cells.length < 65536)
  | packed (number : UInt8) (bytes : Bytes) (isPacked : (Particle.ofByte number).IsPacked)

namespace ValueImage

/-- The number of its type. -/
def number : ValueImage → UInt8
  | .null _ => 0
  | .int _ => 1
  | .double _ => 2
  | .string _ => 3
  | .blob _ => 4
  | .bool _ => 17
  | .geoJson .. => 23
  | .packed number .. => number

def encode : ValueImage → Bytes
  | .null bytes => bytes
  | .int value => BigEndian.encode 8 value.toUInt64.toNat
  | .double bits => BigEndian.encode 8 bits.toNat
  | .string text => utf8 text
  | .blob bytes => bytes
  | .bool byte => [byte]
  | .geoJson flags cells text _ =>
    [flags] ++ (BigEndian.encode 2 cells.length ++
      (cells.flatMap (fun cell => BigEndian.encode 8 cell.toNat) ++ utf8 text))
  | .packed _ bytes _ => bytes

def value : ValueImage → Value
  | .null _ => .nil
  | .int value => .int value
  | .double bits => .float bits
  | .string text => .string text
  | .blob bytes => .blob bytes
  | .bool byte => .bool (byte != 0)
  | .geoJson _ _ text _ => .geoJson text
  | .packed number bytes _ => .packed (Particle.ofByte number) bytes

theorem isSingle_value (image : ValueImage) : image.value.IsSingle := by
  intro items h
  cases image <;> cases h

end ValueImage

theorem readText_utf8 (what text : String) : readText what (utf8 text) = .ok text := by
  rw [readText, Utf8.decode?_utf8]

theorem length_cells (cells : List UInt64) :
    (cells.flatMap fun cell => BigEndian.encode 8 cell.toNat).length = 8 * cells.length := by
  induction cells with
  | nil => rfl
  | cons cell cells ih =>
      rw [List.flatMap_cons, List.length_append, ih, BigEndian.length_encode, List.length_cons]
      omega

/-- The text of a shape is what its flags and cells leave. -/
theorem Value.readGeoJson_encode (flags : UInt8) {cells : List UInt64} (text : String)
    (few : cells.length < 65536) :
    readGeoJson (ValueImage.geoJson flags cells text few).encode = .ok text := by
  have hcount : cells.length.toUInt16.toNat = cells.length := UInt16.toNat_ofNat_of_lt' few
  have hflags : (skip 1).Takes [flags] () := takes_skip rfl
  have hcells : (skip (8 * cells.length.toUInt16.toNat)).Takes
      (cells.flatMap fun cell => BigEndian.encode 8 cell.toNat) () :=
    takes_skip (by rw [hcount, length_cells])
  have hrest : Reader.outcome (do
      skip 1
      let cells ← readUInt16
      skip (8 * cells.toNat)
      return (← get).rest) (ValueImage.geoJson flags cells text few).encode = .ok (utf8 text) := by
    rw [Reader.outcome, ValueImage.encode, hflags.run_bind, (takes_readUInt16 few).run_bind,
      hcells.run_bind]
    rfl
  rw [readGeoJson, hrest]
  exact readText_utf8 _ text

theorem Value.readInt_encode (value : Int64) :
    readInt (BigEndian.encode 8 value.toUInt64.toNat) = .ok value := by
  rw [readInt, if_pos (Nat.le_of_eq (BigEndian.length_encode ..)),
    BigEndian.decode_encode 8 _ value.toUInt64.toNat_lt, Nat.toUInt64_eq, UInt64.ofNat_toNat,
    Int64.toInt64_toUInt64]

theorem Value.readDouble_encode (bits : UInt64) :
    readDouble (BigEndian.encode 8 bits.toNat) = .ok bits := by
  rw [readDouble, if_pos (BigEndian.length_encode ..), BigEndian.decode_encode 8 _ bits.toNat_lt,
    Nat.toUInt64_eq, UInt64.ofNat_toNat]

/-- Packed values are handed on as they are. -/
theorem Value.ofParticle_packed {number : UInt8} (bytes : Bytes)
    (isPacked : (Particle.ofByte number).IsPacked) :
    Value.ofParticle number bytes = .ok (.packed (Particle.ofByte number) bytes) := by
  unfold Value.ofParticle
  generalize Particle.ofByte number = particle at isPacked ⊢
  cases particle <;> first | rfl | exact isPacked.elim

/-- A value is read as what its image means. -/
theorem Value.ofParticle_encode (image : ValueImage) :
    Value.ofParticle image.number image.encode = .ok image.value := by
  cases image with
  | null => rfl
  | int value => exact congrArg (Value.int <$> ·) (readInt_encode value)
  | double bits => exact congrArg (Value.float <$> ·) (readDouble_encode bits)
  | string text => exact congrArg (Value.string <$> ·) (readText_utf8 _ text)
  | blob => rfl
  | bool byte => rfl
  | geoJson flags cells text few =>
      exact congrArg (Value.geoJson <$> ·) (readGeoJson_encode flags text few)
  | packed number bytes isPacked => exact ofParticle_packed bytes isPacked

/-! ### Key fields -/

/-- A field of a key as it is laid out. -/
inductive FieldImage where
  | ns (text : String)
  | set (text : String)
  | digest (value : Digest)
  | userKey (image : ValueImage)
  /-- A field of a type without a meaning. -/
  | other (type : UInt8) (data : Bytes) (unknown : KeyField.ofByte type = .other)

namespace FieldImage

def type : FieldImage → UInt8
  | .ns _ => 0
  | .set _ => 1
  | .userKey _ => 2
  | .digest _ => 4
  | .other type .. => type

def data : FieldImage → Bytes
  | .ns text => utf8 text
  | .set text => utf8 text
  | .digest value => value.bytes
  | .userKey image => image.number :: image.encode
  | .other _ data _ => data

/-- The size of the field can be written. -/
def Fits (field : FieldImage) : Prop :=
  field.data.length + 1 < 2 ^ 32

instance (field : FieldImage) : Decidable field.Fits :=
  inferInstanceAs (Decidable (_ < _))

/-- A size that counts what follows it, the type and the data. -/
def encode (field : FieldImage) : Bytes :=
  BigEndian.encode 4 (field.data.length + 1) ++ ([field.type] ++ field.data)

def ns? : FieldImage → Option String
  | .ns text => some text
  | _ => none

def set? : FieldImage → Option String
  | .set text => some text
  | _ => none

def digest? : FieldImage → Option Digest
  | .digest value => some value
  | _ => none

def userKey? : FieldImage → Option Value
  | .userKey image => some image.value
  | _ => none

end FieldImage

/-- What fields tell of a key. The last field of each type counts. -/
def keyOf (fields : List FieldImage) : KeyEcho where
  ns := (fields.filterMap FieldImage.ns?).getLast?
  set := (fields.filterMap FieldImage.set?).getLast?
  digest := (fields.filterMap FieldImage.digest?).getLast?
  userKey := (fields.filterMap FieldImage.userKey?).getLast?

namespace Row

/-- What is known of a key after more of it has become known. -/
def KeyEcho.over (later earlier : KeyEcho) : KeyEcho where
  ns := later.ns.or earlier.ns
  set := later.set.or earlier.set
  digest := later.digest.or earlier.digest
  userKey := later.userKey.or earlier.userKey

theorem KeyEcho.over_assoc (later middle earlier : KeyEcho) :
    (later.over middle).over earlier = later.over (middle.over earlier) := by
  simp only [KeyEcho.over, Option.or_assoc]

theorem KeyEcho.over_empty (echo : KeyEcho) : echo.over {} = echo := by
  simp [KeyEcho.over]

end Row

theorem keyOf_append (front back : List FieldImage) :
    keyOf (front ++ back) = (keyOf back).over (keyOf front) := by
  simp [keyOf, KeyEcho.over]

/-- A field adds what it tells to what is known of the key. -/
theorem Row.KeyEcho.add_encode (echo : KeyEcho) (field : FieldImage) :
    echo.add field.type field.data = .ok ((keyOf [field]).over echo) := by
  cases field with
  | ns text =>
      exact congrArg ((fun text => { echo with ns := some text }) <$> ·) (readText_utf8 _ text)
  | set text =>
      exact congrArg ((fun text => { echo with set := some text }) <$> ·) (readText_utf8 _ text)
  | digest value =>
      have hwhole : Digest.ofBytes? value.bytes = some value := dif_pos value.length_eq
      unfold KeyEcho.add
      simp only [FieldImage.type, FieldImage.data, KeyField.ofByte, hwhole]
      rfl
  | userKey image =>
      exact congrArg ((fun value => { echo with userKey := some value }) <$> ·)
        (Value.ofParticle_encode image)
  | other type data unknown =>
      unfold KeyEcho.add
      simp only [FieldImage.type, unknown]
      rfl

namespace Row

variable {fields : List FieldImage}

/-- The size of a field counts its type and its data. -/
theorem toNat_fieldSize {field : FieldImage} (fits : field.Fits) :
    (field.data.length + 1).toUInt32.toNat = field.data.length + 1 :=
  UInt32.toNat_ofNat_of_lt' fits

theorem takes_readKeyFrom (echo : KeyEcho)
    (fits : ∀ field ∈ fields, field.Fits) :
    (readKeyFrom echo fields.length).Takes (fields.flatMap FieldImage.encode)
      ((keyOf fields).over echo) := by
  induction fields generalizing echo with
  | nil => exact takes_pure echo
  | cons field fields ih =>
      obtain ⟨hfits, hlater⟩ := List.forall_mem_cons.mp fits
      have hcount := toNat_fieldSize hfits
      have hnonzero : (field.data.length + 1).toUInt32 ≠ 0 := by
        intro hzero
        rw [hzero] at hcount
        cases hcount
      have hdata : (readBytes ((field.data.length + 1).toUInt32.toNat - 1)).Takes field.data
          field.data := takes_readBytes_of_eq (by omega)
      have hadd := takes_lift (KeyEcho.add_encode echo field)
      have hrest := ih ((keyOf [field]).over echo) hlater
      have hbytes : (field :: fields).flatMap FieldImage.encode =
          BigEndian.encode 4 (field.data.length + 1) ++ ([field.type] ++ (field.data ++
            ([] ++ fields.flatMap FieldImage.encode))) := by
        rw [List.flatMap_cons, FieldImage.encode, List.append_assoc, List.append_assoc,
          List.nil_append]
      have hkey : keyOf (field :: fields) = (keyOf fields).over (keyOf [field]) :=
        keyOf_append [field] fields
      rw [hbytes, hkey, KeyEcho.over_assoc, List.length_cons, readKeyFrom]
      refine (takes_readUInt32 hfits).bind (.unless ?_ hnonzero)
      exact (takes_readByte field.type).bind (hdata.bind (hadd.bind hrest))

/-- The fields of a key are read as the key of which they tell. -/
theorem takes_readKey (fits : ∀ field ∈ fields, field.Fits) :
    (readKey fields.length).Takes (fields.flatMap FieldImage.encode) (keyOf fields) := by
  have hkey := takes_readKeyFrom {} fits
  rwa [KeyEcho.over_empty] at hkey

/-- Passing over a field takes its size and its content, whatever they say. -/
theorem Reader.Takes.skipKey_cons {count : Nat} {content back : Bytes} (hback : (skipKey count).Takes back ())
    (fits : content.length < 2 ^ 32) :
    (skipKey (count + 1)).Takes (BigEndian.encode 4 content.length ++ (content ++ back)) () := by
  have hcontent : (skip content.length.toUInt32.toNat).Takes content () :=
    takes_skip (UInt32.toNat_ofNat_of_lt' fits)
  rw [skipKey]
  exact (takes_readUInt32 fits).bind (hcontent.bind hback)

/-- Whoever passes over the key comes to the same place. -/
theorem takes_skipKey (fits : ∀ field ∈ fields, field.Fits) :
    (skipKey fields.length).Takes (fields.flatMap FieldImage.encode) () := by
  induction fields with
  | nil => exact takes_pure ()
  | cons field fields ih =>
      obtain ⟨hfits, hlater⟩ := List.forall_mem_cons.mp fits
      have hbytes : (field :: fields).flatMap FieldImage.encode =
          BigEndian.encode 4 (field.type :: field.data).length ++ ((field.type :: field.data) ++
            fields.flatMap FieldImage.encode) := by
        rw [List.flatMap_cons, FieldImage.encode, List.append_assoc, List.length_cons]
        rfl
      rw [hbytes]
      exact (ih hlater).skipKey_cons hfits

end Row

/-! ### Bins -/

/-- A value of a bin as it is laid out. Neither the kind of operation nor the version tells a reader
anything. -/
structure BinImage where
  name : String
  value : ValueImage
  operation : UInt8
  version : UInt8
  short : (utf8 name).length < 256
  fits : 4 + (utf8 name).length + value.encode.length < 2 ^ 32

namespace BinImage

/-- What follows the size: four bytes of description, the name and the value. -/
def size (bin : BinImage) : Nat :=
  4 + (utf8 bin.name).length + bin.value.encode.length

def encode (bin : BinImage) : Bytes :=
  BigEndian.encode 4 bin.size ++ ([bin.operation] ++ ([bin.value.number] ++ ([bin.version] ++
    ([(utf8 bin.name).length.toUInt8] ++ (utf8 bin.name ++ bin.value.encode)))))

end BinImage

namespace Row

/-- A bin is read as its name and the value that its image means. -/
theorem takes_readBin (bin : BinImage) : readBin.Takes bin.encode (bin.name, bin.value.value) := by
  have hsize : bin.size.toUInt32.toNat = 4 + (utf8 bin.name).length + bin.value.encode.length :=
    UInt32.toNat_ofNat_of_lt' bin.fits
  have hlength : (utf8 bin.name).length.toUInt8.toNat = (utf8 bin.name).length :=
    UInt8.toNat_ofNat_of_lt' bin.short
  have henough : ¬ bin.size.toUInt32.toNat < 4 + (utf8 bin.name).length.toUInt8.toNat := by omega
  have hoperation : (skip 1).Takes [bin.operation] () := takes_skip rfl
  have hversion : (skip 1).Takes [bin.version] () := takes_skip rfl
  have hname : (readBytes (utf8 bin.name).length.toUInt8.toNat).Takes (utf8 bin.name) _ :=
    takes_readBytes_of_eq hlength
  have htext := takes_lift (readText_utf8 "bin name" bin.name)
  have hdata : (readBytes (bin.size.toUInt32.toNat -
      (4 + (utf8 bin.name).length.toUInt8.toNat))).Takes bin.value.encode _ :=
    takes_readBytes_of_eq (by omega)
  have hvalue := takes_lift (Value.ofParticle_encode bin.value)
  -- The texts and values are checked between the reads, which takes no bytes.
  have hbytes : bin.encode = BigEndian.encode 4 bin.size ++ ([bin.operation] ++
      ([bin.value.number] ++ ([bin.version] ++ ([(utf8 bin.name).length.toUInt8] ++
        (utf8 bin.name ++ ([] ++ (bin.value.encode ++ ([] ++ [])))))))) := by
    rw [BinImage.encode, List.nil_append, List.nil_append, List.append_nil]
  rw [hbytes]
  refine (takes_readUInt32 bin.fits).bind (hoperation.bind ((takes_readByte _).bind
    (hversion.bind ((takes_readByte _).bind (.unless ?_ henough)))))
  exact hname.bind (htext.bind (hdata.bind (hvalue.bind (takes_pure _))))

theorem takes_readBinsInto (record : Record) (bins : List BinImage) :
    (readBinsInto record bins.length).Takes (bins.flatMap BinImage.encode)
      ((bins.map fun bin => (bin.name, bin.value.value)).foldl
        (fun record op => record.pushBin op.1 op.2) record) := by
  induction bins generalizing record with
  | nil => exact takes_pure record
  | cons bin bins ih => exact (takes_readBin bin).bind (ih _)

end Row

end RecordGateway
