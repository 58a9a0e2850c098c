import RecordGateway.Group.Header
import RecordGateway.Proofs.Fault.Length
import RecordGateway.Proofs.Row.Extent

/-!
The length of what the reading of rows says when it fails. Its messages tell sizes and places, which are
numbers that the format and the greatest size of a body bound. A reader that begins within a body of that
size stays within it, and its messages have at most the length of those that quote nobody (`Reader.Terse`).
-/

namespace RecordGateway

open Fault (ownLength)

theorem terse_readText {what : String} (hwhat : what.utf8ByteSize ≤ 60) (bytes : Bytes) :
    Terse (readText what bytes) := by
  unfold readText
  split
  · exact failsAs_ok _
  · refine failsAs_error (Fault.fits_parse _ ?_)
    rw [String.utf8ByteSize_append]
    change _ + 13 ≤ 75
    omega

namespace Row

variable {α β : Type} {given : α → Prop}

/-- The cursor is within a body of permitted size. -/
def Cursor.Within (cursor : Cursor) : Prop :=
  cursor.position + cursor.remaining ≤ Group.maxSize

theorem within_beginning {bytes : Bytes} (h : bytes.length ≤ Group.maxSize) :
    Cursor.Within { rest := bytes } := by
  rw [Cursor.Within, Nat.zero_add]
  exact h

/-- Within a body of permitted size the reader stays within it, gives something of a sort, or fails with a
message that quotes nobody. -/
def Reader.Terse (reader : Reader α) (given : α → Prop) : Prop :=
  ∀ cursor, cursor.Within → TerseAt reader cursor fun value final => given value ∧ final.Within

theorem Reader.Terse.outcome {reader : Reader α} (h : reader.Terse given) {bytes : Bytes}
    (hbytes : bytes.length ≤ Group.maxSize) : RecordGateway.Terse (reader.outcome bytes) :=
  (h _ (within_beginning hbytes)).terse.1

theorem Reader.terse_pure {value : α} (h : given value) : (pure value : Reader α).Terse given :=
  fun _ hcursor => terseAt_pure ⟨h, hcursor⟩

theorem Reader.terse_throw {fault : Fault} (h : fault.Fits ownLength) :
    (throw fault : Reader α).Terse given :=
  fun _ _ => terseAt_throw h

theorem Reader.terse_lift {outcome : Except Fault α} (h : RecordGateway.Terse outcome) :
    (liftM outcome : Reader α).Terse fun _ => True := by
  cases outcome with
  | ok value => exact terse_pure trivial
  | error fault => exact terse_throw (h fault rfl)

theorem Reader.Terse.bind {reader : Reader α} {f : α → Reader β} {results : β → Prop}
    (hreader : reader.Terse given) (hf : ∀ value, given value → (f value).Terse results) :
    (reader >>= f).Terse results :=
  fun cursor hcursor => (hreader cursor hcursor).bind fun value next hnext => hf value hnext.1 next hnext.2

/-- A check that refuses some input before reading goes on. -/
theorem Reader.Terse.guard {refused : Prop} [Decidable refused] {fault : Fault} {go : Unit → Reader α}
    (hfault : fault.Fits ownLength) (hgo : (go ()).Terse given) :
    (if refused then throw fault >>= go else go ()).Terse given := by
  split
  · have hthrown : (throw fault : Reader Unit).Terse fun _ => True := terse_throw hfault
    exact hthrown.bind fun _ _ => hgo
  · exact hgo

/-- What is read is no longer than a whole body. -/
theorem terse_readBytes {count : Nat} (hcount : count < 2 ^ 32) :
    (readBytes count).Terse fun bytes => bytes.length ≤ Group.maxSize := by
  intro cursor hcursor
  have hwhole : cursor.position + cursor.rest.length ≤ 134217728 := hcursor
  unfold TerseAt
  by_cases hshort : (cursor.rest.take count).length < count
  · rw [run_readBytes_of_error (if_pos hshort)]
    refine Fault.fits_parse _ ?_
    have hneed : (toString count).utf8ByteSize ≤ 10 := utf8ByteSize_toString_le (by decide) (by omega)
    have hplace : (toString cursor.position).utf8ByteSize ≤ 9 :=
      utf8ByteSize_toString_le (by decide) (by omega)
    have hleft : (toString cursor.remaining).utf8ByteSize ≤ 9 :=
      utf8ByteSize_toString_le (by decide) (by rw [Cursor.remaining]; omega)
    -- The message is as long as its words, whose lengths stand here, and its numbers.
    simp only [String.utf8ByteSize_append]
    change 23 + _ + 17 + _ + 2 + (5 + _) ≤ 75
    omega
  · rw [run_readBytes_of_ok (if_neg hshort)]
    rw [List.length_take] at hshort
    refine ⟨?_, ?_⟩
    · show (cursor.rest.take count).length ≤ 134217728
      rw [List.length_take]
      omega
    · show cursor.position + count + (cursor.rest.drop count).length ≤ 134217728
      rw [List.length_drop]
      omega

theorem terse_skip {count : Nat} (hcount : count < 2 ^ 32) : (skip count).Terse fun _ => True :=
  (terse_readBytes hcount).bind fun _ _ => Reader.terse_pure trivial

theorem terse_readNat {width : Nat} (hwidth : width < 2 ^ 32) :
    (readNat width).Terse fun _ => True :=
  (terse_readBytes hwidth).bind fun _ _ => Reader.terse_pure trivial

theorem terse_readByte : readByte.Terse fun _ => True :=
  (terse_readNat (by decide)).bind fun _ _ => Reader.terse_pure trivial

theorem terse_readUInt16 : readUInt16.Terse fun _ => True :=
  (terse_readNat (by decide)).bind fun _ _ => Reader.terse_pure trivial

theorem terse_readUInt32 : readUInt32.Terse fun _ => True :=
  (terse_readNat (by decide)).bind fun _ _ => Reader.terse_pure trivial

theorem terse_skipKey (count : Nat) : (skipKey count).Terse fun _ => True := by
  induction count with
  | zero => exact Reader.terse_pure trivial
  | succ count ih =>
      rw [skipKey]
      refine terse_readUInt32.bind fun size _ => ?_
      exact (terse_skip size.toNat_lt).bind fun _ _ => ih

theorem terse_readHeader : Header.read.Terse fun _ => True := by
  unfold Header.read
  refine terse_readByte.bind fun length _ => .guard ?_ ?_
  · have hlength : (toString length).utf8ByteSize ≤ 3 :=
      utf8ByteSize_toString_le (by decide) (Nat.lt_trans length.toNat_lt (by decide))
    refine Fault.fits_parse _ ?_
    simp only [String.utf8ByteSize_append]
    change 22 + _ + 7 + 2 ≤ 75
    omega
  refine terse_readByte.bind fun info1 _ => ?_
  refine terse_readByte.bind fun info2 _ => ?_
  refine terse_readByte.bind fun info3 _ => ?_
  refine (terse_skip (by decide)).bind fun _ _ => ?_
  refine terse_readByte.bind fun code _ => ?_
  refine terse_readUInt32.bind fun generation _ => ?_
  refine terse_readUInt32.bind fun expiration _ => ?_
  refine terse_readUInt32.bind fun index _ => ?_
  refine terse_readUInt16.bind fun fieldCount _ => ?_
  refine terse_readUInt16.bind fun opCount _ => ?_
  refine (terse_skip ?_).bind fun _ _ => Reader.terse_pure trivial
  exact Nat.lt_of_le_of_lt (Nat.sub_le _ _) (Nat.lt_trans length.toNat_lt (by decide))

/-! ### Values -/

theorem terse_ofParticle (type : UInt8) {bytes : Bytes} (hbytes : bytes.length ≤ Group.maxSize) :
    RecordGateway.Terse (Value.ofParticle type bytes) := by
  have hlength : (toString bytes.length).utf8ByteSize ≤ 9 :=
    utf8ByteSize_toString_le (by decide) (Nat.lt_of_le_of_lt hbytes (by decide))
  have hint : RecordGateway.Terse (Value.readInt bytes) := by
    unfold Value.readInt
    split
    · exact failsAs_ok _
    · refine failsAs_error (Fault.fits_parse _ ?_)
      simp only [String.utf8ByteSize_append]
      change 21 + _ + 6 ≤ 75
      omega
  have hdouble : RecordGateway.Terse (Value.readDouble bytes) := by
    unfold Value.readDouble
    split
    · exact failsAs_ok _
    · refine failsAs_error (Fault.fits_parse _ ?_)
      simp only [String.utf8ByteSize_append]
      change 20 + _ + 6 ≤ 75
      omega
  have hshape : RecordGateway.Terse (Value.readGeoJson bytes) := by
    unfold Value.readGeoJson
    refine FailsAs.bind ?_ fun text => terse_readText (by decide) _
    have hreader : Reader.Terse (do
        skip 1
        let cells ← readUInt16
        skip (8 * cells.toNat)
        return (← get).rest) fun _ => True := by
      refine (terse_skip (by decide)).bind fun _ _ => ?_
      refine terse_readUInt16.bind fun cells _ => ?_
      have hcells := cells.toNat_lt
      exact (terse_skip (by omega)).bind fun _ _ cursor hcursor => ⟨trivial, hcursor⟩
    exact hreader.outcome hbytes
  unfold Value.ofParticle
  split
  · exact failsAs_ok _
  · exact hint.map _
  · exact hdouble.map _
  · exact (terse_readText (by decide) _).map _
  · exact failsAs_ok _
  · split
    · exact failsAs_ok _
    · exact hint.map _
  · exact hshape.map _
  · exact failsAs_ok _

theorem terse_readBin : readBin.Terse fun _ => True := by
  unfold readBin
  refine terse_readUInt32.bind fun size _ => ?_
  refine (terse_skip (by decide)).bind fun _ _ => ?_
  refine terse_readByte.bind fun type _ => ?_
  refine (terse_skip (by decide)).bind fun _ _ => ?_
  refine terse_readByte.bind fun nameLength _ => .guard ?_ ?_
  · have hsize : (toString size).utf8ByteSize ≤ 10 :=
      utf8ByteSize_toString_le (by decide) (Nat.lt_trans size.toNat_lt (by decide))
    refine Fault.fits_parse _ ?_
    simp only [String.utf8ByteSize_append]
    change 8 + _ + 24 ≤ 75
    omega
  have hname := nameLength.toNat_lt
  have hsize := size.toNat_lt
  refine (terse_readBytes (by omega)).bind fun name _ => ?_
  refine (Reader.terse_lift (terse_readText (by decide) _)).bind fun name _ => ?_
  refine (terse_readBytes (by omega)).bind fun data hdata => ?_
  exact (Reader.terse_lift (terse_ofParticle _ hdata)).bind fun value _ => Reader.terse_pure trivial

/-! ### Rows -/

theorem terse_readRecord (header : Header) : (readRecord header).Terse fun _ => True := by
  have hbins : ∀ count record, (readBinsInto record count).Terse fun _ => True := by
    intro count
    induction count with
    | zero => exact fun _ => Reader.terse_pure trivial
    | succ count ih => exact fun record => terse_readBin.bind fun bin _ => ih _
  exact hbins _ _

/-- A row of a body of permitted size that cannot be read is refused with a message that quotes nobody. -/
theorem terse_readAnonymous : readAnonymous.Terse fun _ => True := by
  unfold readAnonymous
  refine terse_readHeader.bind fun header _ => ?_
  refine (terse_skipKey _).bind fun _ _ => ?_
  exact (terse_readRecord header).bind fun record _ => Reader.terse_pure trivial

end Row
end RecordGateway
