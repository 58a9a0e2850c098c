import RecordGateway.Proofs.FrameReader.Failures
import RecordGateway.Proofs.RecordSet.Delivery

/-!
Doubt in record sets. A record set only reads, and none of the faults with which it can end is in doubt
unless the gateway claims that it is: the rounds fail in the ways in which the reading of an answer fails
(`keeps_run`), what is put on the queue besides rows is the last item alone (`offersRows_round`), and that
item is sure (`endsSurely_rounds`).
-/

namespace RecordGateway

/-- Whether a question puts nothing on a queue but a row. -/
def Ask.OffersRows : Ask → Prop
  | .offer _ (.row ..) => True
  | .offer .. => False
  | _ => True

theorem Ask.KeepsQueues.offersRows {question : Ask} (h : question.KeepsQueues) :
    question.OffersRows := by
  cases question with
  | offer => exact h.elim
  | _ => trivial

namespace RecordSet

open RecordGateway.Flow FrameReader
open RecordGateway.Partition (Tracker)

/-- The item is no fault, or one that leaves nothing open. -/
def Item.IsSure (item : Item) : Prop :=
  ∀ fault, item = .failed fault → fault.IsSure

/-! ### Rounds -/

namespace Round

variable {set : Nat} {answer : FrameReader}

theorem failsAs_readRow : readRow.FailsAs Fault.IsSure := by
  have hparse : ∀ fault : Fault, fault.IsParse → fault.IsSure := fun _ h => h.inDoubt_eq
  unfold readRow
  refine (Row.failsAs_readHeader.mono hparse).bind fun header => ?_
  split
  · exact .guard rfl (Row.Reader.failsAs_pure none)
  · split
    · refine ((Row.failsAs_skipKey _).mono hparse).bind fun _ => ?_
      exact (((Row.failsAs_readRecord header).mono hparse).map _).bind fun _ =>
        Row.Reader.failsAs_pure _
    · refine .guard rfl ?_
      exact ((Row.failsAs_readKeyed header).mono hparse).bind fun _ => Row.Reader.failsAs_pure _

theorem keeps_deliver (rows : List RoundRow) :
    Keeps (fun state : Round => Inside answer state.reader) Fault.IsSure (deliver set rows) := by
  intro state history result final hinside h
  obtain ⟨hreader, roundEnd, rfl, -⟩ := deliver_ends h
  have hfinal : Inside answer final.reader := by
    rw [hreader]
    exact hinside
  exact ⟨hfinal, failsAs_ok roundEnd⟩

/-- What reading a group and delivering rows keep is kept by a round. -/
theorem keeps_run_of_steps {holds : Round → Prop} {sort : Fault → Prop}
    (hgroup : Keeps holds sort (reading readGroup)) (hdeliver : ∀ rows, Keeps holds sort (deliver set rows))
    (hrows : readRow.FailsAs sort) : Keeps holds sort (run set) := by
  have hgroups : ∀ fuel, Keeps holds sort (readGroups set fuel) := by
    intro fuel
    induction fuel with
    | zero => exact keeps_pure _
    | succ fuel ih =>
        refine keeps_bind hgroup fun found => ?_
        cases found with
        | none => exact keeps_pure _
        | some body =>
            have hending := Row.failsAs_unfold hrows body.length { rest := body }
            dsimp only
            refine keeps_bind (hdeliver _) fun roundEnd => ?_
            cases roundEnd with
            | some roundEnd => exact keeps_pure _
            | none =>
                dsimp only
                split
                · next fault hfault => exact keeps_throw (hending fault hfault)
                · exact keeps_pure _
                · exact ih
  exact keeps_get_bind fun state _ => hgroups _

/-- The answer to a round is read to no doubt that the gateway does not claim. -/
theorem keeps_run (hread : answer.limits.isWrite = false) (hunclaimed : ¬ answer.stream.ClaimsDoubt) :
    Keeps (fun state : Round => Inside answer state.reader) Fault.IsSure (run set) := by
  have hgroup : Keeps (fun state : Round => Inside answer state.reader) Fault.IsSure
      (reading readGroup) :=
    keeps_focus Round.reader (fun state reader => { state with reader }) (fun _ _ => rfl)
      (staysInside_readGroup.mono fun fault hfault => hfault.isSure hread hunclaimed)
  exact keeps_run_of_steps hgroup keeps_deliver failsAs_readRow

/-- A round puts nothing on a queue but rows. -/
theorem offersRows_run : ActivityAsks Ask.OffersRows (run set) := by
  have hgroup : ActivityAsks Ask.OffersRows (reading readGroup) := by
    rintro state history ⟨result, final⟩ h event hmem
    obtain ⟨reader, hreading, -⟩ := yields_reading_iff.mp h
    exact (asks_readGroup _ _ _ hreading event hmem).keepsQueues.offersRows
  have hdeliver : ∀ rows, ActivityAsks Ask.OffersRows (deliver set rows) := by
    intro rows
    induction rows with
    | nil => exact activityAsks_pure _
    | cons row rows ih =>
        cases row with
        | partitionDone id code => exact activityAsks_bind (activityAsks_modify _) fun _ => ih
        | data key record =>
            refine activityAsks_bind (activityAsks_modify _) fun _ => ?_
            refine activityAsks_bind (activityAsks_query trivial) fun isRead => ?_
            cases isRead with
            | false => exact activityAsks_pure _
            | true =>
                refine activityAsks_bind activityAsks_get fun state => ?_
                split
                · exact activityAsks_pure _
                · exact ih
  have hgroups : ∀ fuel, ActivityAsks Ask.OffersRows (readGroups set fuel) := by
    intro fuel
    induction fuel with
    | zero => exact activityAsks_pure _
    | succ fuel ih =>
        refine activityAsks_bind hgroup fun found => ?_
        cases found with
        | none => exact activityAsks_pure _
        | some body =>
            dsimp only
            refine activityAsks_bind (hdeliver _) fun roundEnd => ?_
            cases roundEnd with
            | some roundEnd => exact activityAsks_pure _
            | none =>
                dsimp only
                split
                · exact activityAsks_throw _
                · exact activityAsks_pure _
                · exact ih
  exact activityAsks_bind activityAsks_get fun state => hgroups _

end Round

/-! ### Sets -/

/-- A producer whose requests are for reading: opening a round asks nothing of any queue, and it fails
without doubt or gives what the gateway answers. -/
structure Producer.Reads (producer : Producer) : Prop where
  quiet : ∀ filter iteration, (producer.openRound filter iteration).Asks Ask.KeepsQueues
  sure : ∀ filter iteration history opened,
    (producer.openRound filter iteration).Ends history opened → FailsAs Fault.IsSure opened
  opened_mem : ∀ filter iteration history stream,
    (producer.openRound filter iteration).Ends history (.ok stream) →
      ∃ call delay, (⟨.openStream call, ⟨delay, .ok stream⟩⟩ : Event) ∈ history

variable {producer : Producer} {tracker : Tracker} {history : History}

theorem isSure_round {filter : Envelope.PartitionFilter} {result : Except Fault RoundEnd}
    {last : Tracker} (hreads : producer.Reads) (hunclaimed : Unclaimed history)
    (h : (producer.round tracker filter).Ends history (result, last)) :
    FailsAs Fault.IsSure result := by
  obtain ⟨front, back, opened, rfl, hopen, hback⟩ := ends_bind_iff.mp h
  cases opened with
  | error fault =>
      obtain ⟨-, hpair⟩ := ends_pure_iff.mp hback
      obtain ⟨rfl, -⟩ := Prod.mk.inj hpair
      exact failsAs_error (hreads.sure _ _ _ _ hopen fault rfl)
  | ok stream =>
      obtain ⟨reading, silent, ⟨given, final⟩, rfl, hrun, hsilent⟩ := ends_bind_iff.mp hback
      obtain ⟨-, hpair⟩ := ends_pure_iff.mp hsilent
      obtain ⟨rfl, -⟩ := Prod.mk.inj hpair
      obtain ⟨call, delay, hmem⟩ := hreads.opened_mem _ _ _ _ hopen
      have hstream := hunclaimed.not_claimsDoubt (List.mem_append_left _ hmem)
      have hkeeps : Keeps (fun state : Round => Inside
          { stream, limits := producer.limits, reporter := producer.reporter } state.reader)
          Fault.IsSure (Round.run producer.set) := Round.keeps_run rfl hstream
      exact (hkeeps _ _ _ _ (inside_self _) hrun).2

theorem offersRows_round (hreads : producer.Reads) (filter : Envelope.PartitionFilter) :
    (producer.round tracker filter).Asks Ask.OffersRows := by
  refine asks_bind ((hreads.quiet _ _).mono fun _ => Ask.KeepsQueues.offersRows) fun opened => ?_
  cases opened with
  | error fault => exact asks_pure _
  | ok stream => exact asks_bind (Round.offersRows_run _) fun _ => asks_pure _

/-- What a set comes to in the end: nothing that is in doubt, and on the way there only rows. -/
structure Ending (history : History) (item : Option Item) : Prop where
  rows : ∀ event ∈ history, event.question.OffersRows
  sure : ∀ last, item = some last → last.IsSure

theorem Ending.after {front back : History} {item : Option Item}
    (hfront : ∀ event ∈ front, event.question.OffersRows) (h : Ending back item) :
    Ending (front ++ back) item := by
  refine ⟨?_, h.sure⟩
  rw [List.forall_mem_append]
  exact ⟨hfront, h.rows⟩

/-- An activity that ends a set without doubt, if the gateway claims none. -/
def EndsSurely (activity : Flow (Option Item)) : Prop :=
  ∀ history item, Unclaimed history → activity.Ends history item → Ending history item

theorem endsSurely_pure {item : Option Item} (hsure : ∀ last, item = some last → last.IsSure) :
    EndsSurely (pure item) := by
  intro history given _ h
  obtain ⟨rfl, rfl⟩ := ends_pure_iff.mp h
  exact ⟨by simp, hsure⟩

theorem endsSurely_finished (filter : Partition.Filter) :
    EndsSurely (pure (some (.finished filter))) := by
  refine endsSurely_pure ?_
  rintro _ ⟨⟩ fault hfault
  cases hfault

theorem endsSurely_failed {fault : Fault} (hsure : fault.IsSure) :
    EndsSurely (pure (some (.failed fault))) := by
  refine endsSurely_pure ?_
  rintro _ ⟨⟩ _ ⟨⟩
  exact hsure

theorem endsSurely_bind {α : Type} {flow : Flow α} {f : α → Flow (Option Item)}
    (hflow : flow.Asks Ask.OffersRows)
    (hf : ∀ front value, Unclaimed front → flow.Ends front value → EndsSurely (f value)) :
    EndsSurely (flow >>= f) := by
  intro history item hunclaimed h
  obtain ⟨front, back, value, rfl, hfront, hback⟩ := ends_bind_iff.mp h
  obtain ⟨hbefore, hafter⟩ := List.forall_mem_append.mp hunclaimed
  exact (hf front value hbefore hfront back item hafter hback).after (hflow _ _ hfront)

theorem endsSurely_rounds_of_goOn {retries : Nat} (hreads : producer.Reads)
    (hgoOn : ∀ last, EndsSurely (producer.goOn retries last)) (tracker : Tracker) :
    EndsSurely (producer.rounds retries tracker) := by
  rw [Producer.rounds_eq]
  refine endsSurely_bind (asks_query trivial) fun _ cancelled _ _ => ?_
  cases cancelled with
  | true => exact endsSurely_failed rfl
  | false =>
      refine endsSurely_bind (offersRows_round hreads _) ?_
      rintro front ⟨result, last⟩ hfront hround
      have hsure := isSure_round hreads hfront hround
      rcases result with fault | roundEnd
      · dsimp only
        split
        · exact hgoOn _
        · exact endsSurely_failed (hsure fault rfl)
      · cases roundEnd with
        | finished => exact hgoOn _
        | limitReached => exact endsSurely_finished _
        | abandoned => exact endsSurely_pure nofun

/-- Rounds end a set without doubt. The induction is on the retries that are left. -/
theorem endsSurely_rounds (hreads : producer.Reads) (retries : Nat) (tracker : Tracker) :
    EndsSurely (producer.rounds retries tracker) := by
  induction retries generalizing tracker with
  | zero =>
      refine endsSurely_rounds_of_goOn hreads (fun last => ?_) tracker
      unfold Producer.goOn
      split
      · exact endsSurely_finished _
      · exact endsSurely_failed rfl
  | succ retries ih =>
      refine endsSurely_rounds_of_goOn hreads (fun last => ?_) tracker
      unfold Producer.goOn
      split
      · exact endsSurely_finished _
      · dsimp only
        split
        · refine endsSurely_bind ((asks_sleep _).mono fun _ h => h.keepsQueues.offersRows) ?_
          exact fun _ _ _ _ => ih last
        · exact ih last

/-- Whatever a producer puts on a queue is sure, if the gateway claims no doubt. -/
theorem isSure_of_offered (hreads : producer.Reads) (hunclaimed : Unclaimed history)
    (h : (producer.run tracker).Ends history ()) {set : Nat} {item : Item} {isRead : Bool}
    (hmem : (⟨.offer set item, isRead⟩ : Event) ∈ history) : item.IsSure := by
  obtain ⟨front, back, last, rfl, hrounds, hback⟩ := ends_bind_iff.mp h
  have hfront := (List.forall_mem_append.mp hunclaimed).1
  obtain ⟨hrows, hsure⟩ := endsSurely_rounds hreads _ _ _ _ hfront hrounds
  rcases List.mem_append.mp hmem with hmem | hmem
  · have hrow := hrows _ hmem
    cases item with
    | row key record => exact nofun
    | finished filter => exact hrow.elim
    | failed fault => exact hrow.elim
  · cases last with
    | none =>
        obtain ⟨rfl, -⟩ := ends_pure_iff.mp hback
        cases hmem
    | some last =>
        obtain ⟨offering, silent, isTaken, rfl, hoffer, hsilent⟩ := ends_bind_iff.mp hback
        obtain rfl := ends_query_iff.mp hoffer
        obtain ⟨rfl, -⟩ := ends_pure_iff.mp hsilent
        obtain ⟨⟩ := List.mem_singleton.mp hmem
        exact hsure _ rfl

end RecordSet
end RecordGateway
