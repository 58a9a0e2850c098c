import Mathlib.Data.Nat.Digits.Defs
import RecordGateway.Proofs.Fault.Report
import RecordGateway.Proofs.Flow.Failures

/-!
The length of messages. A fault fits into a number of bytes if its message does (`Fault.Fits`). A message
that quotes the transport is cut to the length that the client is told (`fits_ofStatus`). A message that
quotes nobody is made of fixed words and of numbers, and takes at most `ownLength` bytes; an activity with a
state that fails with no others is terse (`TerseAt`), and so is what such activities are put together to.
-/

namespace RecordGateway

theorem utf8ByteSize_toString_le {n width : Nat} (hwidth : 0 < width) (h : n < 10 ^ width) :
    (toString n).utf8ByteSize ≤ width := by
  change n.repr.utf8ByteSize ≤ width
  rw [← length_utf8, utf8_repr, List.length_map]
  exact Nat.toDigits_length 10 n width hwidth h

namespace Fault

variable {fault : Fault} {limit : Nat}

/-- The message of a fault, if it has one, takes at most `limit` bytes. -/
def Fits (limit : Nat) (fault : Fault) : Prop :=
  ∀ text, fault.message = some text → text.utf8ByteSize ≤ limit

/-- No message that quotes nobody is longer. -/
def ownLength : Nat := 75

theorem Fits.mono {wider : Nat} (h : fault.Fits limit) (hwider : limit ≤ wider) : fault.Fits wider :=
  fun text htext => (h text htext).trans hwider

theorem fits_of_message {message : String} (hmessage : fault.message = some message)
    (h : message.utf8ByteSize ≤ limit) : fault.Fits limit := by
  intro text htext
  rw [hmessage] at htext
  obtain rfl := Option.some.inj htext
  exact h

theorem fits_of_silent (h : fault.message = none) : fault.Fits limit := by
  intro text htext
  rw [h] at htext
  cases htext

theorem fits_ofCode (code : ResultCode) : (ofCode code).Fits limit :=
  fits_of_silent rfl

theorem fits_parse {message : String} (causes : List String) (h : message.utf8ByteSize ≤ limit) :
    (parse message causes).Fits limit :=
  fits_of_message rfl h

theorem fits_ofStatus (reporter : Reporter) (status : Status) (isWrite : Bool) :
    (reporter.ofStatus status isWrite).Fits reporter.maxLength :=
  fits_of_message rfl (Excerpt.longest_cut_joinUpTo _ _ _ _).fits

theorem fits_ofResponse (status : ResultCode) (inDoubt isWrite : Bool) :
    (ofResponse status inDoubt isWrite).Fits ownLength := by
  unfold ofResponse
  split
  · exact fits_of_message rfl (by decide)
  split
  · exact fits_of_message rfl (by decide)
  · exact fits_of_silent rfl

theorem fits_deadlineExceeded (isWrite : Bool) : (deadlineExceeded isWrite).Fits ownLength :=
  fits_of_message rfl (by decide)

theorem fits_callCancelled : callCancelled.Fits ownLength :=
  fits_of_message rfl (by decide)

end Fault

/-! ### Activities -/

open Fault (ownLength)

variable {α β σ : Type}

/-- An outcome whose fault, if it is one, quotes nobody. -/
abbrev Terse (outcome : Except Fault α) : Prop :=
  FailsAs (Fault.Fits ownLength) outcome

/-- From a state the activity leads to a result and a state of which something holds, or it fails with a
message that quotes nobody. -/
def TerseAt (activity : ExceptT Fault (StateM σ) α) (state : σ) (after : α → σ → Prop) : Prop :=
  match activity.run.run state with
  | (.ok value, next) => after value next
  | (.error fault, _) => fault.Fits ownLength

variable {state : σ} {after : α → σ → Prop}

theorem terseAt_pure {value : α} (h : after value state) : TerseAt (pure value) state after :=
  h

theorem terseAt_throw {fault : Fault} (h : fault.Fits ownLength) : TerseAt (throw fault) state after :=
  h

theorem terseAt_lift {outcome : Except Fault α} (houtcome : Terse outcome) :
    TerseAt (liftM outcome) state fun value next => outcome = .ok value ∧ next = state := by
  cases outcome with
  | ok value => exact terseAt_pure ⟨rfl, rfl⟩
  | error fault => exact terseAt_throw (houtcome fault rfl)

theorem TerseAt.bind {activity : ExceptT Fault (StateM σ) α} {f : α → ExceptT Fault (StateM σ) β}
    {results : β → σ → Prop} (h : TerseAt activity state after)
    (hf : ∀ value next, after value next → TerseAt (f value) next results) :
    TerseAt (activity >>= f) state results := by
  unfold TerseAt at h ⊢
  rw [ExceptT.run_bind, StateT.run_bind]
  rcases hrun : activity.run.run state with ⟨fault | value, next⟩
  · rw [hrun] at h
    exact h
  · rw [hrun] at h
    exact hf value next h

/-- What a terse activity comes to is terse, and what holds after it holds of its result. -/
theorem TerseAt.terse {activity : ExceptT Fault (StateM σ) α} (h : TerseAt activity state after) :
    Terse (activity.run.run state).1 ∧
      ∀ value, (activity.run.run state).1 = .ok value → ∃ next, after value next := by
  unfold TerseAt at h
  rcases hrun : activity.run.run state with ⟨fault | value, next⟩
  · rw [hrun] at h
    exact ⟨failsAs_error h, nofun⟩
  · rw [hrun] at h
    refine ⟨failsAs_ok value, fun _ hvalue => ?_⟩
    obtain rfl := Except.ok.inj hvalue
    exact ⟨next, h⟩

end RecordGateway
