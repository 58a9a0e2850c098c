import RecordGateway.Proofs.Group.Packing

/-!
The header of a group as one word of 64 bits: the version stands in the highest byte, the type in the
next, and the size in the 48 bits that are left. Word and fields say the same (`toWord_ofWord`,
`ofWord_toWord`), and the bytes of a header are those of its word, so what eight bytes announce is read
off their word and refused only for its type or its size (`decode_eq`).
-/

namespace RecordGateway.Group.Header

/-- The bits of a word in which the size stands. -/
def sizeMask : UInt64 := 0xFFFFFFFFFFFF

/-- The fields in one word; of the size there is room for 48 bits. -/
def toWord (header : Header) : UInt64 :=
  (header.version.toUInt64 <<< 56) ||| (header.type.toUInt64 <<< 48) |||
    (header.size.toUInt64 &&& sizeMask)

/-- The fields of which a word is made. -/
def ofWord (word : UInt64) : Header where
  version := (word >>> 56).toUInt8
  type := ((word >>> 48) &&& 0xFF).toUInt8
  size := (word &&& sizeMask).toNat

variable {header : Header} {bytes : Bytes}

/-! ### Fields and words -/

theorem toNat_and_sizeMask (word : UInt64) : (word &&& sizeMask).toNat = word.toNat % 2 ^ 48 := by
  rw [UInt64.toNat_and]
  exact Nat.and_two_pow_sub_one_eq_mod word.toNat 48

theorem toNat_shiftLeft_or {high low : UInt64} (shift : Nat) (hshift : shift < 64)
    (hhigh : high.toNat * 2 ^ shift < 2 ^ 64) (hlow : low.toNat < 2 ^ shift) :
    ((high <<< shift.toUInt64) ||| low).toNat = high.toNat * 2 ^ shift + low.toNat := by
  have hcount : shift.toUInt64.toNat % 64 = shift := by
    rw [Nat.toUInt64_eq, UInt64.toNat_ofNat']
    omega
  rw [UInt64.toNat_or, UInt64.toNat_shiftLeft, hcount, Nat.shiftLeft_eq, Nat.mod_eq_of_lt hhigh,
    ← Nat.shiftLeft_eq, ← Nat.shiftLeft_add_eq_or_of_lt hlow]

/-- No two fields share a bit, so a word is the sum of its fields. -/
theorem toNat_toWord (header : Header) :
    header.toWord.toNat =
      header.version.toNat * 2 ^ 56 + (header.type.toNat * 2 ^ 48 + header.size % 2 ^ 48) := by
  have hversion := header.version.toNat_lt
  have htype := header.type.toNat_lt
  have hsize : (header.size.toUInt64 &&& sizeMask).toNat = header.size % 2 ^ 48 := by
    rw [toNat_and_sizeMask, Nat.toUInt64_eq, UInt64.toNat_ofNat']
    exact Nat.mod_mod_of_dvd _ (by decide)
  have hlow : ((header.type.toUInt64 <<< (48 : Nat).toUInt64) |||
      (header.size.toUInt64 &&& sizeMask)).toNat =
        header.type.toNat * 2 ^ 48 + header.size % 2 ^ 48 := by
    rw [toNat_shiftLeft_or 48 (by decide) (by rw [UInt8.toNat_toUInt64]; omega) (by rw [hsize]; omega),
      UInt8.toNat_toUInt64, hsize]
  rw [toWord, UInt64.or_assoc, ← hlow, ← header.version.toNat_toUInt64]
  refine toNat_shiftLeft_or 56 (by decide) ?_ ?_
  · rw [UInt8.toNat_toUInt64]
    omega
  · exact lt_of_eq_of_lt hlow (by omega)

theorem toNat_version_ofWord (word : UInt64) :
    (ofWord word).version.toNat = word.toNat / 2 ^ 56 := by
  have hword := word.toNat_lt
  show (word >>> 56).toUInt8.toNat = _
  rw [UInt64.toNat_toUInt8, UInt64.toNat_shiftRight, Nat.shiftRight_eq_div_pow]
  exact Nat.mod_eq_of_lt (Nat.div_lt_of_lt_mul hword)

theorem toNat_type_ofWord (word : UInt64) :
    (ofWord word).type.toNat = word.toNat / 2 ^ 48 % 2 ^ 8 := by
  show ((word >>> 48) &&& 0xFF).toUInt8.toNat = _
  rw [UInt64.toNat_toUInt8, UInt64.toNat_and, UInt64.toNat_shiftRight, Nat.shiftRight_eq_div_pow]
  show (word.toNat / 2 ^ 48 &&& 2 ^ 8 - 1) % 2 ^ 8 = _
  rw [Nat.and_two_pow_sub_one_eq_mod, Nat.mod_mod]

theorem size_ofWord (word : UInt64) : (ofWord word).size = word.toNat % 2 ^ 48 :=
  toNat_and_sizeMask word

/-- Every word is made of the fields that it has. -/
theorem toWord_ofWord (word : UInt64) : (ofWord word).toWord = word := by
  have hword := word.toNat_lt
  apply UInt64.toNat_inj.mp
  rw [toNat_toWord, toNat_version_ofWord, toNat_type_ofWord, size_ofWord]
  omega

/-- A size that has room comes back from the word, and the other fields always do. -/
theorem ofWord_toWord (hsize : header.size < 2 ^ 48) : ofWord header.toWord = header := by
  have hversion := header.version.toNat_lt
  have htype := header.type.toNat_lt
  have hword := toNat_toWord header
  rw [Nat.mod_eq_of_lt hsize] at hword
  have hversions : (ofWord header.toWord).version = header.version := by
    apply UInt8.toNat_inj.mp
    rw [toNat_version_ofWord, hword]
    omega
  have htypes : (ofWord header.toWord).type = header.type := by
    apply UInt8.toNat_inj.mp
    rw [toNat_type_ofWord, hword]
    omega
  have hsizes : (ofWord header.toWord).size = header.size := by
    rw [size_ofWord, hword]
    omega
  calc ofWord header.toWord
      = ⟨(ofWord header.toWord).version, (ofWord header.toWord).type,
          (ofWord header.toWord).size⟩ := rfl
    _ = header := by rw [hversions, htypes, hsizes]

/-! ### Words and bytes -/

/-- Six bytes hold as much of a number as a word has room for. -/
theorem decode_size_lt {size : Bytes} (hwidth : size.length = 6) : BigEndian.decode size < 2 ^ 48 :=
  (BigEndian.decode_lt size).trans_eq (by rw [hwidth]; rfl)

theorem decode_fields (version type : UInt8) {size : Bytes} (hwidth : size.length = 6) :
    BigEndian.decode (version :: type :: size) =
      (toWord ⟨version, type, BigEndian.decode size⟩).toNat := by
  have hroom : BigEndian.decode size % 2 ^ 48 = BigEndian.decode size :=
    Nat.mod_eq_of_lt (decode_size_lt hwidth)
  rw [toNat_toWord, hroom, BigEndian.decode_cons, BigEndian.decode_cons, List.length_cons, hwidth]
  rfl

/-- The bytes of a header are those of its word, the highest first. -/
theorem encode_eq (header : Header) :
    header.encode = BigEndian.encode headerLength header.toWord.toNat := by
  have hword : BigEndian.decode header.encode = header.toWord.toNat := by
    rw [encode, decode_fields _ _ (BigEndian.length_encode 6 _), BigEndian.decode_encode_mod,
      toNat_toWord, toNat_toWord]
    -- Six bytes and 48 bits cut a size that has no room in the same place.
    exact congrArg _ (congrArg _ (Nat.mod_mod ..))
  rw [← hword, ← length_encode header, BigEndian.encode_decode]

/-- What the first eight bytes say, whether or not it may stand before a group. -/
def announced (bytes : Bytes) : Header :=
  ofWord (BigEndian.decode (bytes.take headerLength)).toUInt64

theorem announced_fields (version type : UInt8) {size : Bytes} (hwidth : size.length = 6)
    (hbytes : bytes.take headerLength = version :: type :: size) :
    announced bytes = ⟨version, type, BigEndian.decode size⟩ := by
  rw [announced, hbytes, decode_fields _ _ hwidth, Nat.toUInt64_eq, UInt64.ofNat_toNat,
    ofWord_toWord (decode_size_lt hwidth)]

/-- Eight bytes or more are read as what they announce, if that may stand before a group. -/
theorem decode_eq (bytes : Bytes) :
    decode bytes =
      if bytes.length < headerLength then .error (.parse "proto header too small")
      else (announced bytes).check := by
  have hlength : (bytes.take headerLength).length = min headerLength bytes.length := List.length_take
  rw [decode]
  split
  · next version type size hbytes =>
      rw [hbytes, List.length_cons, List.length_cons] at hlength
      by_cases hshort : bytes.length < headerLength
      · rw [if_neg (by rw [headerLength] at *; omega), if_pos hshort]
      · have hwidth : size.length = 6 := by
          rw [headerLength] at *
          omega
        rw [if_pos hwidth, if_neg hshort, announced_fields version type hwidth hbytes]
  · next hnone =>
      rw [if_pos]
      by_contra hlong
      rw [Nat.min_eq_left (Nat.not_lt.mp hlong)] at hlength
      obtain ⟨version, back, hfront⟩ := List.exists_cons_of_length_eq_add_one hlength
      rw [hfront, List.length_cons] at hlength
      obtain ⟨type, size, rfl⟩ := List.exists_cons_of_length_eq_add_one (Nat.succ.inj hlength)
      exact hnone version type size hfront

/-- Every word in eight bytes is read as the fields that it has. -/
theorem decode_word (word : UInt64) (rest : Bytes) :
    decode (BigEndian.encode headerLength word.toNat ++ rest) = (ofWord word).check := by
  have hlength : (BigEndian.encode headerLength word.toNat).length = headerLength :=
    BigEndian.length_encode _ _
  have hnumber : BigEndian.decode (BigEndian.encode headerLength word.toNat) = word.toNat :=
    BigEndian.decode_encode _ _ word.toNat_lt
  rw [decode_eq, if_neg (by rw [List.length_append]; omega), announced, List.take_left' hlength, hnumber,
    Nat.toUInt64_eq, UInt64.ofNat_toNat]

/-! ### Headers that are refused -/

theorem exists_check_eq_error_iff :
    (∃ fault, header.check = .error fault) ↔
      (header.type ≠ plainType ∧ header.type ≠ compressedType) ∨ maxSize < header.size := by
  rw [check]
  split
  · next htype => exact iff_of_true ⟨_, rfl⟩ (.inl htype)
  · next htype =>
      split
      · next hsize => exact iff_of_true ⟨_, rfl⟩ (.inr hsize)
      · next hsize =>
          refine iff_of_false ?_ (not_or.mpr ⟨htype, hsize⟩)
          rintro ⟨fault, hfault⟩
          cases hfault

/-- A header is read back from its bytes, whatever follows them, and bytes that are read as a header begin
with its bytes. Refused are no others than bytes that are too few and those that announce an unknown type
or too great a size; what they announce stands in the bits of their word. -/
theorem read_back_exactly :
    (∀ (version type : UInt8) (size : Nat) (rest : Bytes),
      type = plainType ∨ type = compressedType → size ≤ maxSize →
        decode (encode ⟨version, type, size⟩ ++ rest) = .ok ⟨version, type, size⟩) ∧
    (∀ bytes header, decode bytes = .ok header → header.encode = bytes.take headerLength) ∧
    (∀ bytes, (∃ fault, decode bytes = .error fault) ↔
      bytes.length < headerLength ∨
        ((announced bytes).type ≠ plainType ∧ (announced bytes).type ≠ compressedType) ∨
          maxSize < (announced bytes).size) ∧
    (∀ header : Header, header.encode = BigEndian.encode headerLength header.toWord.toNat) ∧
    ∀ word rest, decode (BigEndian.encode headerLength word.toNat ++ rest) = (ofWord word).check := by
  refine ⟨?_, ?_, ?_, encode_eq, decode_word⟩
  · intro version type size rest htype hsize
    exact decode_encode htype hsize rest
  · intro bytes header h
    obtain ⟨-, -, rest, rfl⟩ := decode_eq_ok_iff.mp h
    exact (List.take_left' (length_encode header)).symm
  · intro bytes
    rw [decode_eq]
    by_cases hshort : bytes.length < headerLength
    · rw [if_pos hshort]
      exact iff_of_true ⟨_, rfl⟩ (.inl hshort)
    · rw [if_neg hshort, exists_check_eq_error_iff]
      exact (or_iff_right hshort).symm

/-- The greatest size that may be announced, and one byte more. -/
theorem greatest_size_read_back :
    encode ⟨255, compressedType, maxSize⟩ = [255, 4, 0, 0, 8, 0, 0, 0] ∧
      decode ([255, 4, 0, 0, 8, 0, 0, 0] ++ [7]) = .ok ⟨255, compressedType, maxSize⟩ ∧
      [255, 4, 0, 0, 8, 0, 0, 0, 7].take headerLength = encode ⟨255, compressedType, maxSize⟩ ∧
      ∃ fault, decode [255, 4, 0, 0, 8, 0, 0, 1] = .error fault := by
  obtain ⟨hback, hbytes, hrefused, -, -⟩ := read_back_exactly
  have hencode : encode ⟨255, compressedType, maxSize⟩ = [255, 4, 0, 0, 8, 0, 0, 0] := by decide
  have hread := hback 255 compressedType maxSize [7] (.inr rfl) (Nat.le_refl _)
  rw [hencode] at hread
  exact ⟨hencode, hread, (hbytes _ _ hread).symm, (hrefused _).mpr (.inr (.inr (by decide)))⟩

end RecordGateway.Group.Header
