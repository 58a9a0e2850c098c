import RecordGateway.Batch.Reassembly
import RecordGateway.Proofs.Flow.Traces
import RecordGateway.RecordSet.Round

/-!
The traces of reading an answer. All that a reader asks while it reads is when a frame will come and whether
it has come, always under the limits of the call. So a property of histories that holds of each wait for a
frame (`Watches`) holds of the reading of all frames (`traces_readGroup`, `traces_drain`), of the whole
answer to a batch, and, if it also holds of what is put on the queue, of a round of a record set.
-/

namespace RecordGateway

open RecordGateway.Flow

/-- A property that is left behind by each wait for a frame under the given limits. The wait is a success only
if the frame has come. -/
structure FrameReader.Watches (limits : Limits) (trace : Bool → History → Prop) : Prop
    extends Lasting trace where
  awaited : ∀ {succeeded : Bool} {front : History} {due : Option Time} {waited : Waited},
    (∀ event ∈ front, event.question = .clock) → (succeeded = true → waited = .arrived) →
    trace succeeded (front ++ [⟨.wait due limits, waited⟩])

namespace FrameReader

theorem watches_forall {limits : Limits} {allowed : Ask → Prop} (hclock : allowed .clock)
    (hwait : ∀ due, allowed (.wait due limits)) :
    Watches limits fun _ history => ∀ event ∈ history, allowed event.question where
  toLasting := lasting_forall allowed
  awaited := by
    intro _ front due waited hfront _
    rw [List.forall_mem_append, List.forall_mem_singleton]
    refine ⟨fun event hmem => ?_, hwait due⟩
    rw [hfront event hmem]
    exact hclock

variable {limits : Limits} {trace : Bool → History → Prop} {reader final : FrameReader}
  {history : History}

/-! ### Frames -/

/-- Waiting for a frame asks for the time at most, and then waits under the limits of the call. -/
theorem waitForFrame_asks {result : Except Fault Waited}
    (h : Yields waitForFrame reader history result final) :
    ∃ front due waited, history = front ++ [⟨.wait due reader.limits, waited⟩] ∧
      (∀ event ∈ front, event.question = .clock) ∧ result = .ok waited ∧
      final.limits = reader.limits := by
  have hwait : ∀ (front rest : History) (due : Option Time) (stored : Option (Option Time)),
      (∀ event ∈ front, event.question = .clock) →
      Yields (ask (.wait due reader.limits)) { reader with stream.due := stored } rest result final →
      ∃ clocks due waited, front ++ rest = clocks ++ [⟨.wait due reader.limits, waited⟩] ∧
        (∀ event ∈ clocks, event.question = .clock) ∧ result = .ok waited ∧
        final.limits = reader.limits := by
    intro front rest due stored hfront hrest
    obtain ⟨waited, rfl, rfl, rfl⟩ := yields_query_iff.mp hrest
    exact ⟨front, due, waited, rfl, hfront, rfl, rfl⟩
  unfold waitForFrame at h
  rw [yields_get_bind_iff] at h
  dsimp only at h
  split at h
  · exact hwait [] history _ _ (List.forall_mem_nil _) h
  · exact hwait [] history _ _ (List.forall_mem_nil _) h
  · obtain ⟨now, rest, rfl, hrest⟩ := yields_query_bind_iff.mp h
    refine hwait [⟨.clock, now⟩] _ _ _ ?_ hrest
    rw [List.forall_mem_singleton]

/-- Taking a frame that has come asks nothing. -/
theorem takeFrame_asks {result : Except Fault Unit}
    (h : Yields takeFrame reader history result final) :
    history = [] ∧ final.limits = reader.limits := by
  unfold takeFrame at h
  rw [yields_get_bind_iff] at h
  split at h
  · obtain ⟨rfl, -, rfl⟩ := yields_throw_iff.mp h
    exact ⟨rfl, rfl⟩
  · rw [yields_set_bind_iff] at h
    obtain ⟨rfl, -, rfl⟩ := yields_throw_iff.mp h
    exact ⟨rfl, rfl⟩
  · dsimp only at h
    split at h
    · rw [yields_set_bind_iff] at h
      obtain ⟨rfl, -, rfl⟩ := yields_throw_bind_iff.mp h
      exact ⟨rfl, rfl⟩
    · obtain ⟨rfl, -, rfl⟩ := yields_set_iff.mp h
      exact ⟨rfl, rfl⟩

namespace Watches

variable (h : Watches limits trace)
include h

theorem traces_nextFrame : Traces (fun reader => reader.limits = limits) trace nextFrame := by
  rintro reader history result final rfl hends
  unfold nextFrame at hends
  rw [yields_get_bind_iff] at hends
  split at hends
  · obtain ⟨rfl, rfl, rfl⟩ := yields_pure_iff.mp hends
    exact ⟨rfl, h.nil _⟩
  rcases yields_bind_iff.mp hends with ⟨_, hwait, rfl⟩ | ⟨_, back, waited, middle, rfl, hwait, hback⟩
  · obtain ⟨_, _, _, -, -, hresult, -⟩ := waitForFrame_asks hwait
    cases hresult
  obtain ⟨front, due, _, rfl, hfront, hresult, hmiddle⟩ := waitForFrame_asks hwait
  obtain rfl := Except.ok.inj hresult
  cases waited with
  | cancelled =>
      obtain ⟨rfl, rfl, rfl⟩ := yields_throw_iff.mp hback
      rw [List.append_nil]
      exact ⟨hmiddle, h.awaited hfront nofun⟩
  | timedOut =>
      rw [yields_get_bind_iff] at hback
      obtain ⟨rfl, rfl, rfl⟩ := yields_throw_iff.mp hback
      rw [List.append_nil]
      exact ⟨hmiddle, h.awaited hfront nofun⟩
  | arrived =>
      have hcome : ∀ {succeeded : Bool}, trace succeeded (front ++ [⟨.wait due reader.limits, .arrived⟩]) :=
        h.awaited hfront fun _ => rfl
      rcases yields_bind_iff.mp hback with ⟨fault, htake, rfl⟩ | ⟨_, _, _, _, rfl, htake, hlast⟩
      · obtain ⟨rfl, hfinal⟩ := takeFrame_asks htake
        rw [List.append_nil]
        exact ⟨hfinal.trans hmiddle, hcome⟩
      · obtain ⟨rfl, hfinal⟩ := takeFrame_asks htake
        obtain ⟨rfl, rfl, rfl⟩ := yields_pure_iff.mp hlast
        rw [List.append_nil, List.append_nil]
        exact ⟨hfinal.trans hmiddle, hcome⟩

theorem traces_fill (enough : Bytes → Bool) :
    Traces (fun reader => reader.limits = limits) trace (fill enough) := by
  have hfrom : ∀ fuel, Traces (fun reader => reader.limits = limits) trace (fillFrom enough fuel) := by
    intro fuel
    induction fuel with
    | zero => exact h.traces_pure _
    | succ fuel ih =>
        refine traces_get_bind fun reader _ => ?_
        split
        · exact h.traces_pure _
        · refine h.traces_bind h.traces_nextFrame fun more => ?_
          cases more with
          | true => exact ih
          | false => exact h.traces_pure _
  exact traces_get_bind fun reader _ => hfrom _

theorem traces_readExact (count : Nat) :
    Traces (fun reader => reader.limits = limits) trace (readExact count) := by
  unfold readExact
  refine h.traces_bind (h.traces_fill _) fun filled => ?_
  refine traces_get_bind fun reader hreader => ?_
  split
  · exact h.traces_bind (h.traces_set hreader) fun _ => h.traces_pure _
  · exact h.traces_throw _

theorem traces_readGroup : Traces (fun reader => reader.limits = limits) trace readGroup := by
  have hends : Traces (fun reader => reader.limits = limits) trace atEnd :=
    h.traces_bind (h.traces_fill _) fun _ => h.traces_pure _
  unfold readGroup
  refine h.traces_bind hends fun ended => ?_
  split
  · exact h.traces_pure _
  · refine h.traces_bind (h.traces_readExact _) fun announced => ?_
    refine h.traces_bind (h.traces_lift _) fun header => ?_
    refine h.traces_bind (h.traces_readExact _) fun packed => ?_
    exact h.traces_bind (h.traces_lift _) fun body => h.traces_pure _

theorem traces_drain : Traces (fun reader => reader.limits = limits) trace drain := by
  have hfrom : ∀ fuel, Traces (fun reader => reader.limits = limits) trace (drainFrom fuel) := by
    intro fuel
    induction fuel with
    | zero => exact h.traces_pure _
    | succ fuel ih =>
        refine h.traces_bind (h.traces_modify fun _ => id) fun _ => ?_
        refine h.traces_bind h.traces_nextFrame fun more => ?_
        cases more with
        | true => exact ih
        | false => exact h.traces_pure _
  exact traces_get_bind fun reader _ => hfrom _

/-! ### Whole answers -/

/-- The answer to a batch is read by waiting for frames alone. -/
theorem traces_reassembly (plan : Batch.Plan) :
    Traces (fun state : Batch.Reassembly => state.reader.limits = limits) trace
      (Batch.Reassembly.run plan) := by
  have hreading : ∀ {α : Type} {activity : Reading α},
      Traces (fun reader => reader.limits = limits) trace activity →
      Traces (fun state : Batch.Reassembly => state.reader.limits = limits) trace
        (Batch.Reassembly.reading activity) := fun hactivity =>
    traces_focus Batch.Reassembly.reader (fun state reader => { state with reader })
      (fun _ _ => rfl) hactivity
  have hgroups : ∀ fuel, Traces (fun state : Batch.Reassembly => state.reader.limits = limits) trace
      (Batch.Reassembly.readGroups plan fuel) := by
    intro fuel
    induction fuel with
    | zero => exact h.traces_pure _
    | succ fuel ih =>
        refine h.traces_bind (hreading h.traces_readGroup) fun found => ?_
        cases found with
        | none => exact h.traces_pure _
        | some body =>
            refine traces_get_bind fun state _ => ?_
            dsimp only
            refine h.traces_bind (h.traces_modify fun _ => id) fun _ => ?_
            split
            · exact h.traces_throw _
            · exact hreading h.traces_drain
            · exact ih
  unfold Batch.Reassembly.run
  refine traces_get_bind fun state _ => h.traces_bind (hgroups _) fun _ => ?_
  exact h.traces_modify fun _ => id

/-- A round waits for frames and puts rows on the queue of its set. -/
theorem traces_round {set : Nat}
    (hoffer : ∀ key record isRead, trace true [⟨.offer set (.row key record), isRead⟩]) :
    Traces (fun state : RecordSet.Round => state.reader.limits = limits) trace
      (RecordSet.Round.run set) := by
  have hreading : Traces (fun state : RecordSet.Round => state.reader.limits = limits) trace
      (RecordSet.Round.reading readGroup) :=
    traces_focus RecordSet.Round.reader (fun state reader => { state with reader })
      (fun _ _ => rfl) h.traces_readGroup
  have hdeliver : ∀ rows, Traces (fun state : RecordSet.Round => state.reader.limits = limits) trace
      (RecordSet.Round.deliver set rows) := by
    intro rows
    induction rows with
    | nil => exact h.traces_pure _
    | cons row rows ih =>
        cases row with
        | partitionDone number code =>
            exact h.traces_bind (h.traces_modify fun _ => id) fun _ => ih
        | data key record =>
            refine h.traces_bind (h.traces_modify fun _ => id) fun _ => ?_
            refine h.traces_bind (traces_query (hoffer _ _)) fun isRead => ?_
            split
            · exact h.traces_pure _
            · refine traces_get_bind fun state _ => ?_
              split
              · exact h.traces_pure _
              · exact ih
  have hgroups : ∀ fuel, Traces (fun state : RecordSet.Round => state.reader.limits = limits) trace
      (RecordSet.Round.readGroups set fuel) := by
    intro fuel
    induction fuel with
    | zero => exact h.traces_pure _
    | succ fuel ih =>
        refine h.traces_bind hreading fun found => ?_
        cases found with
        | none => exact h.traces_pure _
        | some body =>
            dsimp only
            refine h.traces_bind (hdeliver _) fun roundEnd => ?_
            cases roundEnd with
            | some roundEnd => exact h.traces_pure _
            | none =>
                dsimp only
                split
                · exact h.traces_throw _
                · exact h.traces_pure _
                · exact ih
  exact traces_get_bind fun state _ => hgroups _

end Watches
end FrameReader
end RecordGateway
