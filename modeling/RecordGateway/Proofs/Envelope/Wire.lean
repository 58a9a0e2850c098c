import Mathlib.Algebra.Order.Ring.Nat
import RecordGateway.Envelope.Wire

/-!
Fields read back. A field that messages write holds a number, or bytes that carry their length before them
(`Field.IsPlain`). Whatever fields of this kind stand in a row, reading their bytes gives the same fields, as
long as the lengths fit the sixty-four bits of a number on the wire (`readFields?_encodeFields`). That is so if
all the bytes together fit, since a field takes at least as many bytes as it holds (`fits_of_mem`).
-/

namespace RecordGateway.Envelope

variable {n number depth fuel : Nat} {rest : Bytes} {value : Wire} {field : Field} {fields : List Field}

/-! ### Numbers -/

theorem toNat_toUInt8 (h : n < 256) : n.toUInt8.toNat = n := by
  rw [Nat.toUInt8, UInt8.toNat_ofNat']
  exact Nat.mod_eq_of_lt h

theorem takeVarint?_cons (limit : Nat) (byte : UInt8) (rest : Bytes) :
    takeVarint? (limit + 1) (byte :: rest) =
      if byte.toNat < 128 then if limit = 0 ∧ 2 ≤ byte.toNat then none else some (byte.toNat, rest)
      else (takeVarint? limit rest).map fun (high, rest) => (byte.toNat - 128 + 128 * high, rest) := by
  rw [takeVarint?]
  simp only [UInt8.lt_iff_toNat_lt, UInt8.le_iff_toNat_le]
  cases takeVarint? limit rest <;> rfl

/-- The number of bytes that may be read bounds the number: seven bits for each, and one for the last. -/
theorem takeVarint?_encodeVarint {limit : Nat} (h : n < 2 * 128 ^ limit) :
    takeVarint? (limit + 1) (encodeVarint n ++ rest) = some (n, rest) := by
  induction limit generalizing n with
  | zero =>
      have hbit : n < 2 := h
      rw [encodeVarint, if_pos (by omega), List.singleton_append, takeVarint?_cons,
        toNat_toUInt8 (by omega), if_pos (by omega), if_neg (by omega)]
  | succ limit ih =>
      rw [encodeVarint]
      by_cases hlast : n < 128
      · rw [if_pos hlast, List.singleton_append, takeVarint?_cons, toNat_toUInt8 (by omega),
          if_pos hlast, if_neg (by omega)]
      · have hhigh : n / 128 < 2 * 128 ^ limit := by
          rw [Nat.pow_succ] at h
          omega
        rw [if_neg hlast, List.cons_append, takeVarint?_cons, toNat_toUInt8 (by omega),
          if_neg (by omega), ih hhigh, Option.map_some]
        have hsum : n % 128 + 128 - 128 + 128 * (n / 128) = n := by omega
        exact congrArg (fun low => some (low, rest)) hsum

theorem varint?_encodeVarint (h : n < UInt64.size) : varint? (encodeVarint n ++ rest) = some (n, rest) :=
  takeVarint?_encodeVarint h

theorem encodeVarint_ne_nil (n : Nat) : encodeVarint n ≠ [] := by
  rw [encodeVarint]
  split <;> exact List.cons_ne_nil _ _

/-! ### One field -/

/-- What messages write: numbers, and bytes that carry their length. -/
def Wire.IsPlain : Wire → Prop
  | .varint _ => True
  | .bytes _ => True
  | _ => False

/-- The length of the bytes is a number on the wire. -/
def Wire.Fits : Wire → Prop
  | .bytes value => value.length < UInt64.size
  | _ => True

/-- A field as messages write it, whose number a tag has room for. -/
structure Field.IsPlain (field : Field) : Prop where
  numbered : 0 < field.number ∧ field.number < 2 ^ 29
  plain : field.value.IsPlain

theorem takeBytes?_append (value rest : Bytes) :
    takeBytes? value.length (value ++ rest) = some (value, rest) := by
  rw [takeBytes?, if_pos (by simp), List.take_left, List.drop_left]

theorem takeTag?_encodeVarint (hnumber : 0 < number ∧ number < 2 ^ 29) (value : Wire) :
    takeTag? (encodeVarint (8 * number + value.typeNumber) ++ rest) =
      some (number, value.typeNumber, rest) := by
  have htype : value.typeNumber < 8 := by cases value <;> simp [Wire.typeNumber]
  have htag : 8 * number + value.typeNumber < UInt32.size := by
    change 8 * number + value.typeNumber < 2 ^ 32
    omega
  have hsize : UInt32.size < UInt64.size := by decide
  have hdiv : (8 * number + value.typeNumber) / 8 = number := by omega
  have hmod : (8 * number + value.typeNumber) % 8 = value.typeNumber := by omega
  rw [takeTag?, varint?_encodeVarint (Nat.lt_trans htag hsize)]
  simp only [Option.bind_eq_bind, Option.bind_some, hdiv, hmod]
  rw [if_neg (by omega)]
  rfl

theorem takeValue?_encode (hplain : value.IsPlain) (hfits : value.Fits) :
    takeValue? depth fuel number value.typeNumber (value.encode number ++ rest) = some (value, rest) := by
  cases value with
  | varint value =>
      rw [Wire.typeNumber, Wire.encode, takeValue?, varint?_encodeVarint value.toNat_lt]
      simp
  | bytes bytes =>
      rw [Wire.typeNumber, Wire.encode, takeValue?, List.append_assoc, varint?_encodeVarint hfits]
      simp [takeBytes?_append]
  | fixed64 | group | fixed32 => exact hplain.elim

/-! ### Fields in a row -/

theorem encode_ne_nil (field : Field) : field.encode ≠ [] :=
  List.append_ne_nil_of_left_ne_nil (encodeVarint_ne_nil _) _

theorem length_le_length_encodeFields (hmem : field ∈ fields) :
    field.encode.length ≤ (encodeFields fields).length :=
  (List.sublist_flatten_of_mem (List.mem_map_of_mem hmem)).length_le

/-- A field takes at least as many bytes as it holds, so it fits if the whole message does. -/
theorem fits_of_mem (hlength : (encodeFields fields).length < UInt64.size) (hmem : field ∈ fields) :
    field.value.Fits := by
  have hfield := Nat.lt_of_le_of_lt (length_le_length_encodeFields hmem) hlength
  obtain ⟨number, value⟩ := field
  cases value with
  | bytes bytes =>
      rw [Field.encode, Wire.encode, List.length_append, List.length_append] at hfield
      exact Nat.lt_of_le_of_lt (by omega) hfield
  | varint | fixed64 | group | fixed32 => trivial

theorem takeFields?_encodeFields (hplain : ∀ field ∈ fields, field.IsPlain)
    (hfits : ∀ field ∈ fields, field.value.Fits) (hfuel : fields.length ≤ fuel) :
    takeFields? depth fuel (encodeFields fields) = some fields := by
  induction fields generalizing fuel with
  | nil => cases fuel <;> rfl
  | cons field fields ih =>
      rw [List.forall_mem_cons] at hplain hfits
      obtain _ | fuel := fuel
      · cases hfuel
      · have hbytes : encodeFields (field :: fields) =
            encodeVarint (8 * field.number + field.value.typeNumber) ++
              (field.value.encode field.number ++ encodeFields fields) := by
          rw [encodeFields, List.flatMap_cons, Field.encode, List.append_assoc]
          rfl
        rw [hbytes, takeFields?, takeTag?_encodeVarint hplain.1.numbered]
        · simp only [Option.bind_eq_bind, Option.bind_some, takeValue?_encode hplain.1.plain hfits.1,
            ih hplain.2 hfits.2 (Nat.le_of_succ_le_succ hfuel)]
          rfl
        · exact List.append_ne_nil_of_left_ne_nil (encodeVarint_ne_nil _) _

/-- Every field takes a byte at least, so there is enough fuel for all of them. -/
theorem length_le_encodeFields (fields : List Field) : fields.length ≤ (encodeFields fields).length := by
  induction fields with
  | nil => exact Nat.le_refl 0
  | cons field fields ih =>
      have hpos := List.length_pos_iff.mpr (encode_ne_nil field)
      rw [encodeFields, List.flatMap_cons, List.length_append, List.length_cons]
      exact Nat.add_comm .. ▸ Nat.add_le_add hpos ih

theorem readFields?_encodeFields (hplain : ∀ field ∈ fields, field.IsPlain)
    (hlength : (encodeFields fields).length < UInt64.size) :
    readFields? depth (encodeFields fields) = some fields :=
  takeFields?_encodeFields hplain (fun _ => fits_of_mem hlength) (length_le_encodeFields fields)

end RecordGateway.Envelope
