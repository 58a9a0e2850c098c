import Mathlib.Algebra.Order.Ring.Nat
import Mathlib.Data.List.Induction
import RecordGateway.Bytes.BigEndian

/-!
What reading undoes: a run of bytes is read from front to back (`decode_append`), and a number that
fits comes back from its bytes (`decode_encode`), as bytes do from the number that they spell
(`encode_decode`).
-/

namespace RecordGateway.BigEndian

theorem foldl_eq (acc : Nat) (bytes : Bytes) :
    bytes.foldl (fun acc byte => 256 * acc + byte.toNat) acc
      = acc * 256 ^ bytes.length + decode bytes := by
  induction bytes generalizing acc with
  | nil => simp [decode]
  | cons byte bytes ih =>
    rw [decode, List.foldl_cons, List.foldl_cons, ih, ih (256 * 0 + byte.toNat), List.length_cons,
      Nat.pow_succ]
    grind

theorem decode_append (front back : Bytes) :
    decode (front ++ back) = decode front * 256 ^ back.length + decode back := by
  rw [decode, List.foldl_append, foldl_eq, ← decode]

theorem decode_cons (byte : UInt8) (bytes : Bytes) :
    decode (byte :: bytes) = byte.toNat * 256 ^ bytes.length + decode bytes := by
  have first : decode [byte] = byte.toNat := by simp [decode]
  rw [← first, ← decode_append]
  rfl

theorem decode_concat (front : Bytes) (byte : UInt8) :
    decode (front ++ [byte]) = decode front * 256 + byte.toNat := by
  rw [decode_append, decode_cons]
  simp [decode]

/-- Of a number only what fits comes back. -/
theorem decode_encode_mod (width n : Nat) : decode (encode width n) = n % 256 ^ width := by
  induction width generalizing n with
  | zero => simp [encode, decode, Nat.mod_one]
  | succ width ih =>
    have last : n.toUInt8.toNat = n % 256 := UInt8.toNat_ofNat'
    rw [encode, decode_concat, ih, last, Nat.pow_succ', Nat.mod_mul]
    omega

theorem decode_encode (width n : Nat) (small : n < 256 ^ width) : decode (encode width n) = n := by
  rw [decode_encode_mod, Nat.mod_eq_of_lt small]

theorem decode_lt (bytes : Bytes) : decode bytes < 256 ^ bytes.length := by
  induction bytes using List.reverseRecOn with
  | nil => decide
  | append_singleton front byte ih =>
    have hbyte : byte.toNat < 256 := byte.toNat_lt
    rw [decode_concat, List.length_append, List.length_singleton, Nat.pow_succ]
    omega

theorem encode_decode (bytes : Bytes) : encode bytes.length (decode bytes) = bytes := by
  induction bytes using List.reverseRecOn with
  | nil => rfl
  | append_singleton front byte ih =>
    have hbyte : byte.toNat < 256 := byte.toNat_lt
    have hfront : (decode front * 256 + byte.toNat) / 256 = decode front := by omega
    have hlast : (decode front * 256 + byte.toNat).toUInt8 = byte := by
      apply UInt8.toNat_inj.mp
      simp
    rw [List.length_append, List.length_singleton, encode, decode_concat, hfront, ih, hlast]

end RecordGateway.BigEndian
