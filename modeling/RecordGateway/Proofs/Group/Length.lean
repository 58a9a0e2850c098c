import RecordGateway.Proofs.Bytes.Expansion
import RecordGateway.Proofs.Fault.Length
import RecordGateway.Proofs.Group.Packing

/-!
The length of what is said of groups that cannot be read. The numbers in it are those of a header, which has
eight bytes, and the number of bytes that a body of permitted size expands to.
-/

namespace RecordGateway.Group

theorem terse_check {header : Header} (hsize : header.size < 256 ^ 6) : Terse header.check := by
  unfold Header.check
  split
  · have htype : (toString header.type).utf8ByteSize ≤ 3 :=
      utf8ByteSize_toString_le (by decide) (Nat.lt_trans header.type.toNat_lt (by decide))
    refine failsAs_error (Fault.fits_parse _ ?_)
    simp only [String.utf8ByteSize_append]
    change 24 + _ + 0 ≤ 75
    omega
  split
  · have hsize : (toString header.size).utf8ByteSize ≤ 15 :=
      utf8ByteSize_toString_le (by decide) (Nat.lt_trans hsize (by decide))
    refine failsAs_error (Fault.fits_parse _ ?_)
    simp only [String.utf8ByteSize_append]
    change 19 + _ + 12 ≤ 75
    omega
  · exact failsAs_ok _

theorem terse_decode (bytes : Bytes) : Terse (Header.decode bytes) := by
  unfold Header.decode
  split
  · next version type size _ =>
      split
      · next hwidth =>
          have hbelow := BigEndian.decode_lt size
          rw [hwidth] at hbelow
          exact terse_check hbelow
      · exact failsAs_error (Fault.fits_parse _ (by decide))
  · exact failsAs_error (Fault.fits_parse _ (by decide))

theorem terse_innerBody (inflated : Bytes) : Terse (innerBody inflated) := by
  unfold innerBody
  refine (terse_decode _).bind fun inner => ?_
  refine .guard (Fault.fits_parse _ (by decide)) (.guard (Fault.fits_parse _ (by decide)) ?_)
  exact failsAs_ok _

/-- A body of permitted size that cannot be unpacked is refused with a message that quotes nobody. The
number of bytes that it expands to is bounded even where it is not the announced one. -/
theorem terse_unwrap (header : Header) {body : Bytes} (hbody : body.length ≤ maxSize) :
    Terse (unwrap header body) := by
  unfold unwrap unwrapWith
  split
  · exact failsAs_ok _
  refine .guard (Fault.fits_parse _ (by decide)) ?_
  dsimp only
  split
  · exact failsAs_error (Fault.fits_parse _ (by decide))
  next hexpected =>
  split
  · exact failsAs_error (Fault.fits_parse _ (by decide))
  next inflated hinflate =>
  refine .guard (Fault.fits_parse _ ?_) (terse_innerBody inflated)
  have hfound : (toString inflated.length).utf8ByteSize ≤ 12 := by
    refine utf8ByteSize_toString_le (by decide) ?_
    have hexpands := Zlib.length_inflate_le hinflate
    rw [List.length_drop, Deflate.maxRepeat] at hexpands
    have hbody : body.length ≤ 134217728 := hbody
    omega
  have hannounced : (toString (BigEndian.decode (body.take headerLength))).utf8ByteSize ≤ 9 :=
    utf8ByteSize_toString_le (by decide) (Nat.lt_of_le_of_lt (Nat.not_lt.mp hexpected) (by decide))
  simp only [String.utf8ByteSize_append]
  change 9 + _ + 17 + _ ≤ 75
  omega

theorem length_of_unwrap {header : Header} {packed body : Bytes} (hpacked : packed.length ≤ maxSize)
    (h : unwrap header packed = .ok body) : body.length ≤ maxSize := by
  cases Unpacks.of_unwrapWith h with
  | plain => exact hpacked
  | compressed version _ hlength _ hinflated hform =>
      have hsize := congrArg List.length hform
      rw [List.length_append, Header.length_encode] at hsize
      omega

/-- The first group of an answer has a body of permitted size. -/
theorem length_le_of_first? {bytes body rest : Bytes} (h : first? bytes = some (body, rest)) :
    body.length ≤ maxSize := by
  obtain ⟨header, packed, hheader, hpacked, -, hunwrap⟩ := first?_eq_some_iff.mp h
  have hsize := (Header.decode_eq_ok_iff.mp hheader).2.1
  exact length_of_unwrap (hpacked ▸ hsize) hunwrap

end RecordGateway.Group
