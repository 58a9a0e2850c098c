import RecordGateway.FrameReader
import RecordGateway.Proofs.Row.Failures

/-!
How the reading of an answer fails (`Failure`): its bytes are unsound or too few, a wait was cut off, the
transport broke the stream off, or the gateway sent a frame with a status of its own. Only the last two
say anything about what the gateway has done, and of these only a frame carries the gateway's own word on
doubt; so a read is in doubt only if a frame says so (`Failure.isSure`).
-/

namespace RecordGateway

/-- A response that says that the call failed, and that it is open what became of it. -/
def Envelope.Response.ClaimsDoubt (response : Envelope.Response) : Prop :=
  response.status ≠ 0 ∧ response.inDoubt = true

/-- A stream that brings a response which claims doubt. -/
def FrameStream.ClaimsDoubt (stream : FrameStream) : Prop :=
  ∃ delay response, ⟨delay, .ok response⟩ ∈ stream.arrivals ∧ response.ClaimsDoubt

/-- The gateway answers a request with a response that claims doubt. -/
def Event.ClaimsDoubt : Event → Prop
  | ⟨.send _, reply⟩ => ∃ response, reply.value = .ok response ∧ response.ClaimsDoubt
  | ⟨.openStream _, opened⟩ => ∃ stream, opened.value = .ok stream ∧ stream.ClaimsDoubt
  | _ => False

/-- The gateway claims no doubt. -/
def Unclaimed (history : History) : Prop :=
  ∀ event ∈ history, ¬ event.ClaimsDoubt

theorem Unclaimed.not_claimsDoubt {history : History} {call : Call} {delay : Option Time}
    {stream : FrameStream} (h : Unclaimed history)
    (hmem : (⟨.openStream call, ⟨delay, .ok stream⟩⟩ : Event) ∈ history) : ¬ stream.ClaimsDoubt :=
  fun hclaims => h _ hmem ⟨stream, rfl, hclaims⟩

namespace Fault

/-- The fault leaves nothing open: what failed has not been done. -/
def IsSure (fault : Fault) : Prop :=
  fault.inDoubt = false

theorem inDoubt_ofStatus (reporter : Reporter) (status : Status) :
    (reporter.ofStatus status false).inDoubt = false := by
  unfold Reporter.ofStatus
  cases status.code <;> rfl

theorem inDoubt_ofResponse (status : ResultCode) (inDoubt : Bool) :
    (ofResponse status inDoubt false).inDoubt = inDoubt := by
  unfold ofResponse
  split
  · rfl
  · split
    · exact Bool.or_false inDoubt
    · rfl

end Fault

namespace FrameReader

open RecordGateway.Flow

/-- Why the reading of an answer fails. -/
inductive Failure (answer : FrameReader) : Fault → Prop where
  | parse {fault : Fault} : fault.IsParse → Failure answer fault
  | cancelled : Failure answer .callCancelled
  | timedOut : Failure answer (.deadlineExceeded answer.limits.isWrite)
  | transport {delay : Option Time} {status : Status} :
      ⟨delay, .error status⟩ ∈ answer.stream.arrivals →
      Failure answer (answer.reporter.ofStatus status answer.limits.isWrite)
  | frame {delay : Option Time} {response : Envelope.Response} :
      ⟨delay, .ok response⟩ ∈ answer.stream.arrivals → response.status ≠ 0 →
      Failure answer (.ofResponse response.status.toInt response.inDoubt answer.limits.isWrite)

/-- An answer to a read leaves no doubt unless it claims doubt itself. -/
theorem Failure.isSure {answer : FrameReader} {fault : Fault} (h : Failure answer fault)
    (hread : answer.limits.isWrite = false) (hunclaimed : ¬ answer.stream.ClaimsDoubt) :
    fault.IsSure := by
  cases h with
  | parse hparse => exact hparse.inDoubt_eq
  | cancelled => rfl
  | timedOut => exact hread
  | transport =>
      rw [hread]
      exact Fault.inDoubt_ofStatus _ _
  | frame hmem hstatus =>
      rw [hread, Fault.IsSure, Fault.inDoubt_ofResponse]
      exact Bool.eq_false_iff.mpr fun hdoubt => hunclaimed ⟨_, _, hmem, hstatus, hdoubt⟩

/-- The reader is somewhere in the answer: what is still to come is part of it. -/
structure Inside (answer reader : FrameReader) : Prop where
  limits_eq : reader.limits = answer.limits
  reporter_eq : reader.reporter = answer.reporter
  arrivals_subset : reader.stream.arrivals ⊆ answer.stream.arrivals

theorem inside_self (answer : FrameReader) : Inside answer answer :=
  ⟨rfl, rfl, fun _ => id⟩

variable {answer : FrameReader}

/-- An activity that stays inside an answer fails for one of the reasons that there are. -/
abbrev StaysInside {α : Type} (answer : FrameReader) (activity : Reading α) : Prop :=
  Keeps (Inside answer) (Failure answer) activity

theorem staysInside_waitForFrame : StaysInside answer waitForFrame := by
  unfold waitForFrame
  refine keeps_get_bind fun reader hreader => ?_
  have hwait : ∀ due : Option Time, StaysInside answer (do
      set { reader with stream := { reader.stream with due } }
      ask (.wait due reader.limits)) := fun due =>
    keeps_bind (keeps_set ⟨hreader.limits_eq, hreader.reporter_eq, hreader.arrivals_subset⟩)
      fun _ => keeps_query _
  dsimp only
  split
  · exact hwait _
  · exact hwait _
  · exact keeps_bind (keeps_query _) fun now => hwait _

theorem staysInside_takeFrame : StaysInside answer takeFrame := by
  unfold takeFrame
  refine keeps_get_bind fun reader hreader => ?_
  obtain ⟨hlimits, hreporter, hsubset⟩ := hreader
  split
  · exact keeps_throw (.parse (Fault.isParse_parse _ _))
  · next delay status rest harrivals =>
      rw [harrivals, List.cons_subset] at hsubset
      refine keeps_bind (keeps_set ⟨hlimits, hreporter, hsubset.2⟩) fun _ => ?_
      rw [hlimits, hreporter]
      exact keeps_throw (.transport hsubset.1)
  · next delay response rest harrivals =>
      rw [harrivals, List.cons_subset] at hsubset
      dsimp only
      split
      · next hstatus =>
          have hthrow : StaysInside answer (throw (.ofResponse response.status.toInt
              response.inDoubt reader.limits.isWrite) : Reading PUnit) := by
            rw [hlimits]
            exact keeps_throw (.frame hsubset.1 hstatus)
          refine keeps_bind (keeps_set ⟨hlimits, hreporter, hsubset.2⟩) fun _ => ?_
          exact keeps_bind hthrow fun _ => keeps_set ⟨hlimits, hreporter, hsubset.2⟩
      · exact keeps_set ⟨hlimits, hreporter, hsubset.2⟩

theorem staysInside_nextFrame : StaysInside answer nextFrame := by
  unfold nextFrame
  refine keeps_get_bind fun reader _ => ?_
  split
  · exact keeps_pure _
  · refine keeps_bind staysInside_waitForFrame fun waited => ?_
    cases waited with
    | cancelled => exact keeps_throw .cancelled
    | timedOut =>
        refine keeps_get_bind fun reader hreader => ?_
        rw [hreader.limits_eq]
        exact keeps_throw .timedOut
    | arrived => exact keeps_bind staysInside_takeFrame fun _ => keeps_pure _

theorem staysInside_fill (enough : Bytes → Bool) : StaysInside answer (fill enough) := by
  have hfrom : ∀ fuel, StaysInside answer (fillFrom enough fuel) := by
    intro fuel
    induction fuel with
    | zero => exact keeps_pure _
    | succ fuel ih =>
        refine keeps_get_bind fun reader _ => ?_
        split
        · exact keeps_pure _
        · refine keeps_bind staysInside_nextFrame fun more => ?_
          cases more with
          | true => exact ih
          | false => exact keeps_pure _
  exact keeps_get_bind fun reader _ => hfrom _

theorem staysInside_readExact (count : Nat) : StaysInside answer (readExact count) := by
  unfold readExact
  refine keeps_bind (staysInside_fill _) fun filled => ?_
  refine keeps_get_bind fun reader hreader => ?_
  split
  · exact keeps_bind
      (keeps_set ⟨hreader.limits_eq, hreader.reporter_eq, hreader.arrivals_subset⟩)
      fun _ => keeps_pure _
  · exact keeps_throw (.parse (Fault.isParse_parse _ _))

theorem staysInside_readGroup : StaysInside answer readGroup := by
  have hends : StaysInside answer atEnd :=
    keeps_bind (staysInside_fill _) fun _ => keeps_pure _
  unfold readGroup
  refine keeps_bind hends fun ended => ?_
  split
  · exact keeps_pure _
  · refine keeps_bind (staysInside_readExact _) fun announced => ?_
    refine keeps_bind (keeps_lift ((Group.failsAs_decode _).mono fun _ => .parse)) fun header => ?_
    refine keeps_bind (staysInside_readExact _) fun packed => ?_
    exact keeps_bind (keeps_lift ((Group.failsAs_unwrapWith _ _ _).mono fun _ => .parse)) fun body =>
      keeps_pure _

theorem staysInside_drain : StaysInside answer drain := by
  have hfrom : ∀ fuel, StaysInside answer (drainFrom fuel) := by
    intro fuel
    induction fuel with
    | zero => exact keeps_pure _
    | succ fuel ih =>
        refine keeps_bind (keeps_modify fun reader hreader => ?_) fun _ => ?_
        · exact ⟨hreader.limits_eq, hreader.reporter_eq, hreader.arrivals_subset⟩
        · refine keeps_bind staysInside_nextFrame fun more => ?_
          cases more with
          | true => exact ih
          | false => exact keeps_pure _
  exact keeps_get_bind fun reader _ => hfrom _

end FrameReader
end RecordGateway
