import RecordGateway.Group.Body
import RecordGateway.Proofs.Flow.Failures
import RecordGateway.Proofs.Row.Extent

/-!
How the reading of rows fails: whatever the bytes are, with a fault that says where they have not the form
of a row, and that says nothing else (`Fault.IsParse`). The result code of a row has no part in it, since
a row is read before anybody looks at its code.
-/

namespace RecordGateway

variable {α β : Type} {sort : Fault → Prop}

/-- The fault says that bytes have not the form they should, and what came before that. -/
def Fault.IsParse (fault : Fault) : Prop :=
  ∃ message causes, fault = .parse message causes

theorem Fault.isParse_parse (message : String) (causes : List String) :
    (Fault.parse message causes).IsParse :=
  ⟨message, causes, rfl⟩

theorem Fault.IsParse.kind_eq {fault : Fault} (h : fault.IsParse) : fault.kind = .parse := by
  obtain ⟨message, causes, rfl⟩ := h
  rfl

theorem Fault.IsParse.inDoubt_eq {fault : Fault} (h : fault.IsParse) : fault.inDoubt = false := by
  obtain ⟨message, causes, rfl⟩ := h
  rfl

/-! ### Groups -/

namespace Group

theorem failsAs_decode (bytes : Bytes) : FailsAs Fault.IsParse (Header.decode bytes) := by
  have hcheck : ∀ header : Header, FailsAs Fault.IsParse header.check := by
    intro header
    unfold Header.check
    split
    · exact failsAs_error (Fault.isParse_parse _ _)
    · split
      · exact failsAs_error (Fault.isParse_parse _ _)
      · exact failsAs_ok _
  unfold Header.decode
  split
  · split
    · exact hcheck _
    · exact failsAs_error (Fault.isParse_parse _ _)
  · exact failsAs_error (Fault.isParse_parse _ _)

theorem failsAs_innerBody (inflated : Bytes) : FailsAs Fault.IsParse (innerBody inflated) := by
  unfold innerBody
  refine (failsAs_decode _).bind fun inner => ?_
  refine .guard (Fault.isParse_parse _ _) (.guard (Fault.isParse_parse _ _) ?_)
  exact failsAs_ok _

theorem failsAs_unwrapWith (inflate : Bytes → Option Bytes) (header : Header) (body : Bytes) :
    FailsAs Fault.IsParse (unwrapWith inflate header body) := by
  unfold unwrapWith
  split
  · exact failsAs_ok _
  refine .guard (Fault.isParse_parse _ _) (.guard (Fault.isParse_parse _ _) ?_)
  split
  · exact failsAs_error (Fault.isParse_parse _ _)
  · exact .guard (Fault.isParse_parse _ _) (failsAs_innerBody _)

end Group

theorem failsAs_readText (what : String) (bytes : Bytes) :
    FailsAs Fault.IsParse (readText what bytes) := by
  unfold readText
  split
  · exact failsAs_ok _
  · exact failsAs_error (Fault.isParse_parse _ _)

namespace Row

/-- Wherever the reader begins, it succeeds or fails in a certain way. -/
def Reader.FailsAs (sort : Fault → Prop) (reader : Reader α) : Prop :=
  ∀ cursor, RecordGateway.FailsAs sort (reader.run.run cursor).1

theorem Reader.FailsAs.outcome {reader : Reader α} (h : reader.FailsAs sort) (bytes : Bytes) :
    RecordGateway.FailsAs sort (reader.outcome bytes) :=
  h _

theorem Reader.FailsAs.mono {wider : Fault → Prop} {reader : Reader α} (h : reader.FailsAs sort)
    (hwider : ∀ fault, sort fault → wider fault) : reader.FailsAs wider :=
  fun cursor => (h cursor).mono hwider

theorem Reader.failsAs_pure (value : α) : (pure value : Reader α).FailsAs sort :=
  fun _ => failsAs_ok value

theorem Reader.failsAs_throw {fault : Fault} (hfault : sort fault) :
    (throw fault : Reader α).FailsAs sort :=
  fun _ => failsAs_error hfault

theorem Reader.failsAs_lift {outcome : Except Fault α} (h : RecordGateway.FailsAs sort outcome) :
    (liftM outcome : Reader α).FailsAs sort := by
  cases outcome with
  | ok value => exact failsAs_pure value
  | error fault => exact failsAs_throw (h fault rfl)

theorem Reader.FailsAs.bind {reader : Reader α} {f : α → Reader β} (hreader : reader.FailsAs sort)
    (hf : ∀ value, (f value).FailsAs sort) : (reader >>= f).FailsAs sort := by
  intro cursor
  have hfirst := hreader cursor
  rw [ExceptT.run_bind, StateT.run_bind]
  rcases hrun : reader.run.run cursor with ⟨outcome, middle⟩
  rw [hrun] at hfirst
  cases outcome with
  | error fault => exact failsAs_error (hfirst fault rfl)
  | ok value => exact hf value middle

theorem Reader.FailsAs.map {reader : Reader α} (hreader : reader.FailsAs sort) (f : α → β) :
    (f <$> reader).FailsAs sort := by
  rw [map_eq_pure_bind]
  exact hreader.bind fun value => failsAs_pure (f value)

/-- A check that refuses some input before reading goes on. -/
theorem Reader.FailsAs.guard {refused : Prop} [Decidable refused] {fault : Fault}
    {go : Unit → Reader α} (hfault : sort fault) (hgo : (go ()).FailsAs sort) :
    (if refused then throw fault >>= go else go ()).FailsAs sort := by
  split
  · exact (failsAs_throw hfault).bind fun _ => hgo
  · exact hgo

theorem failsAs_readBytes (count : Nat) : (readBytes count).FailsAs Fault.IsParse := by
  intro cursor
  by_cases hshort : (cursor.rest.take count).length < count
  · rw [run_readBytes_of_error (if_pos hshort)]
    exact failsAs_error (Fault.isParse_parse _ _)
  · rw [run_readBytes_of_ok (if_neg hshort)]
    exact failsAs_ok _

theorem failsAs_skip (count : Nat) : (skip count).FailsAs Fault.IsParse :=
  (failsAs_readBytes count).map _

theorem failsAs_readNat (width : Nat) : (readNat width).FailsAs Fault.IsParse :=
  (failsAs_readBytes width).bind fun _ => Reader.failsAs_pure _

theorem failsAs_readByte : readByte.FailsAs Fault.IsParse :=
  (failsAs_readNat 1).bind fun _ => Reader.failsAs_pure _

theorem failsAs_readUInt16 : readUInt16.FailsAs Fault.IsParse :=
  (failsAs_readNat 2).bind fun _ => Reader.failsAs_pure _

theorem failsAs_readUInt32 : readUInt32.FailsAs Fault.IsParse :=
  (failsAs_readNat 4).bind fun _ => Reader.failsAs_pure _

theorem failsAs_skipKey (count : Nat) : (skipKey count).FailsAs Fault.IsParse := by
  induction count with
  | zero => exact Reader.failsAs_pure _
  | succ count ih =>
      rw [skipKey]
      refine failsAs_readUInt32.bind fun size => ?_
      exact (failsAs_skip _).bind fun _ => ih

theorem failsAs_readHeader : Header.read.FailsAs Fault.IsParse := by
  unfold Header.read
  refine failsAs_readByte.bind fun length => .guard (Fault.isParse_parse _ _) ?_
  refine failsAs_readByte.bind fun info1 => ?_
  refine failsAs_readByte.bind fun info2 => ?_
  refine failsAs_readByte.bind fun info3 => ?_
  refine (failsAs_skip 1).bind fun _ => ?_
  refine failsAs_readByte.bind fun code => ?_
  refine failsAs_readUInt32.bind fun generation => ?_
  refine failsAs_readUInt32.bind fun expiration => ?_
  refine failsAs_readUInt32.bind fun index => ?_
  refine failsAs_readUInt16.bind fun fieldCount => ?_
  refine failsAs_readUInt16.bind fun opCount => ?_
  exact (failsAs_skip _).bind fun _ => Reader.failsAs_pure _

/-! ### Values -/

theorem failsAs_ofParticle (type : UInt8) (bytes : Bytes) :
    FailsAs Fault.IsParse (Value.ofParticle type bytes) := by
  have hint : ∀ bytes, FailsAs Fault.IsParse (Value.readInt bytes) := by
    intro bytes
    unfold Value.readInt
    split
    · exact failsAs_ok _
    · exact failsAs_error (Fault.isParse_parse _ _)
  have hdouble : ∀ bytes, FailsAs Fault.IsParse (Value.readDouble bytes) := by
    intro bytes
    unfold Value.readDouble
    split
    · exact failsAs_ok _
    · exact failsAs_error (Fault.isParse_parse _ _)
  have hshape : ∀ bytes, FailsAs Fault.IsParse (Value.readGeoJson bytes) := by
    intro bytes
    unfold Value.readGeoJson
    refine (Reader.FailsAs.outcome ?_ bytes).bind fun text => failsAs_readText _ _
    refine (failsAs_skip 1).bind fun _ => ?_
    refine failsAs_readUInt16.bind fun cells => ?_
    exact (failsAs_skip _).bind fun _ cursor => failsAs_ok cursor.rest
  unfold Value.ofParticle
  split
  · exact failsAs_ok _
  · exact (hint _).map _
  · exact (hdouble _).map _
  · exact (failsAs_readText _ _).map _
  · exact failsAs_ok _
  · split
    · exact failsAs_ok _
    · exact (hint _).map _
  · exact (hshape _).map _
  · exact failsAs_ok _

theorem failsAs_readBin : readBin.FailsAs Fault.IsParse := by
  unfold readBin
  refine failsAs_readUInt32.bind fun size => ?_
  refine (failsAs_skip 1).bind fun _ => ?_
  refine failsAs_readByte.bind fun type => ?_
  refine (failsAs_skip 1).bind fun _ => ?_
  refine failsAs_readByte.bind fun nameLength => .guard (Fault.isParse_parse _ _) ?_
  refine (failsAs_readBytes _).bind fun name => ?_
  refine (Reader.failsAs_lift (failsAs_readText _ _)).bind fun name => ?_
  refine (failsAs_readBytes _).bind fun data => ?_
  exact (Reader.failsAs_lift (failsAs_ofParticle _ _)).bind fun value => Reader.failsAs_pure _

/-! ### Rows -/

theorem failsAs_readBinsInto (record : Record) (count : Nat) :
    (readBinsInto record count).FailsAs Fault.IsParse := by
  induction count generalizing record with
  | zero => exact Reader.failsAs_pure record
  | succ count ih => exact failsAs_readBin.bind fun bin => ih _

theorem failsAs_readRecord (header : Header) : (readRecord header).FailsAs Fault.IsParse :=
  failsAs_readBinsInto _ _

theorem failsAs_readAnonymous : readAnonymous.FailsAs Fault.IsParse := by
  unfold readAnonymous
  refine failsAs_readHeader.bind fun header => ?_
  refine (failsAs_skipKey _).bind fun _ => ?_
  exact (failsAs_readRecord header).bind fun record => Reader.failsAs_pure _

theorem failsAs_add (echo : KeyEcho) (type : UInt8) (data : Bytes) :
    FailsAs Fault.IsParse (echo.add type data) := by
  unfold KeyEcho.add
  split
  · exact (failsAs_readText _ _).bind fun _ => failsAs_ok _
  · exact (failsAs_readText _ _).bind fun _ => failsAs_ok _
  · split
    · exact failsAs_ok _
    · exact failsAs_error (Fault.isParse_parse _ _)
  · split
    · exact failsAs_error (Fault.isParse_parse _ _)
    · exact (failsAs_ofParticle _ _).bind fun _ => failsAs_ok _
  · exact failsAs_ok _

theorem failsAs_readKeyFrom (echo : KeyEcho) (count : Nat) :
    (readKeyFrom echo count).FailsAs Fault.IsParse := by
  induction count generalizing echo with
  | zero => exact Reader.failsAs_pure echo
  | succ count ih =>
      rw [readKeyFrom]
      refine failsAs_readUInt32.bind fun size => .guard (Fault.isParse_parse _ _) ?_
      refine failsAs_readByte.bind fun type => ?_
      refine (failsAs_readBytes _).bind fun data => ?_
      exact (Reader.failsAs_lift (failsAs_add _ _ _)).bind fun echo => ih echo

theorem failsAs_readKeyed (header : Header) : (readKeyed header).FailsAs Fault.IsParse := by
  unfold readKeyed
  refine (failsAs_readKeyFrom {} _).bind fun key => ?_
  exact (failsAs_readRecord header).bind fun record => Reader.failsAs_pure _

/-- The rows of a body end in a fault only if one of them cannot be read. -/
theorem failsAs_unfold {step : Reader (Option α)} (hstep : step.FailsAs sort) (fuel : Nat)
    (cursor : Cursor) : FailsAs sort (unfold step fuel cursor).2 := by
  induction fuel generalizing cursor with
  | zero => exact failsAs_ok false
  | succ fuel ih =>
      have hfirst := hstep cursor
      rw [Row.unfold]
      split
      · exact failsAs_ok false
      · split
        · next fault _ hrun =>
            rw [hrun] at hfirst
            exact failsAs_error (hfirst fault rfl)
        · exact failsAs_ok true
        · exact ih _

end Row
end RecordGateway
