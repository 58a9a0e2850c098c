import RecordGateway.Proofs.Client.Batch
import RecordGateway.Proofs.Client.Replies
import RecordGateway.Proofs.Client.Streams
import RecordGateway.Proofs.RecordSet.Doubt

/-!
Doubt in reads. A read cannot have changed anything, and none of the places where the client makes a fault
of its own calls a read in doubt. The one way to a read in doubt is a response with a status of its own
that claims doubt: the client passes the claim on without asking whether anything was to be written. So
reads of all kinds are sure as long as the gateway claims no doubt (`isSure_of_reads`).
-/

namespace RecordGateway

open RecordGateway.Flow FrameReader

/-- What the encoder refuses has not been sent, and the refusal leaves nothing open. -/
structure Framer.IsSure (framer : Framer) : Prop where
  command : ∀ command, FailsAs Fault.IsSure (framer.command command)
  batch : ∀ policy requests, FailsAs Fault.IsSure (framer.batch policy requests)
  value : ∀ value, FailsAs Fault.IsSure (framer.value value)

theorem Statement.failsAs_message {framer : Framer} (hframer : framer.IsSure)
    (statement : Statement) : FailsAs Fault.IsSure (statement.message framer) := by
  have hcondition : FailsAs Fault.IsSure (statement.condition.mapM (Condition.message framer)) := by
    cases statement.condition with
    | none => exact failsAs_ok none
    | some condition =>
        refine FailsAs.map ?_ some
        refine (hframer.value _).bind fun first => ?_
        exact (hframer.value _).bind fun last => failsAs_ok _
  unfold message
  refine hcondition.bind fun filter => ?_
  refine (failsAs_mapM hframer.value _).bind fun arguments => ?_
  refine (failsAs_mapM (fun operation => ?_) _).bind fun operations => failsAs_ok _
  exact (hframer.value _).bind fun _ => failsAs_ok _

namespace Batch

variable {answer : FrameReader} {plan : Plan}

theorem failsAs_takeGroup (plan : Plan) (tally : Tally) (body : Bytes) :
    FailsAs Fault.IsSure (tally.takeGroup plan body).2 := by
  have hparse : ∀ fault : Fault, fault.IsParse → fault.IsSure := fun _ h => h.inDoubt_eq
  have hrow : Tally.readRow.FailsAs Fault.IsSure := by
    unfold Tally.readRow
    refine (Row.failsAs_readHeader.mono hparse).bind fun header => ?_
    split
    · exact .guard rfl (Row.Reader.failsAs_pure none)
    · refine ((Row.failsAs_skipKey _).mono hparse).bind fun _ => ?_
      exact ((Row.failsAs_readRecord header).mono hparse).bind fun _ => Row.Reader.failsAs_pure _
  have hplace : ∀ (tally : Tally) header record,
      FailsAs Fault.IsSure (tally.place plan header record) := by
    intro tally header record
    unfold Tally.place
    refine FailsAs.bind ?_ fun index => ?_
    · unfold Plan.slot
      split
      · exact failsAs_ok _
      · exact failsAs_error rfl
    · split
      · exact failsAs_error rfl
      · split
        · exact failsAs_ok _
        · exact failsAs_ok _
  have hplaceAll : ∀ rows (tally : Tally) fault,
      (tally.placeAll plan rows).2 = some fault → fault.IsSure := by
    intro rows
    induction rows with
    | nil => exact fun tally fault => nofun
    | cons row rows ih =>
        intro tally fault hfault
        unfold Tally.placeAll at hfault
        split at hfault
        · next given hgiven =>
            obtain rfl := Option.some.inj hfault
            exact hplace _ _ _ given hgiven
        · exact ih _ fault hfault
  have hending := Row.failsAs_unfold hrow body.length { rest := body }
  unfold Tally.takeGroup
  dsimp only
  split
  · next fault hfault => exact failsAs_error (hplaceAll _ _ fault (by rw [hfault]))
  · exact hending

/-- The answer to a batch is read to no doubt that the gateway does not claim. -/
theorem Reassembly.keeps_run (hread : answer.limits.isWrite = false)
    (hunclaimed : ¬ answer.stream.ClaimsDoubt) :
    Keeps (fun state : Reassembly => Inside answer state.reader) Fault.IsSure (run plan) := by
  have hreading : ∀ {α : Type} {activity : FrameReader.Reading α}, StaysInside answer activity →
      Keeps (fun state : Reassembly => Inside answer state.reader) Fault.IsSure
        (reading activity) := fun hactivity =>
    keeps_focus Reassembly.reader (fun state reader => { state with reader }) (fun _ _ => rfl)
      (hactivity.mono fun fault hfault => hfault.isSure hread hunclaimed)
  have hgroups : ∀ fuel, Keeps (fun state : Reassembly => Inside answer state.reader) Fault.IsSure
      (readGroups plan fuel) := by
    intro fuel
    induction fuel with
    | zero => exact keeps_pure _
    | succ fuel ih =>
        refine keeps_bind (hreading staysInside_readGroup) fun found => ?_
        cases found with
        | none => exact keeps_pure _
        | some body =>
            refine keeps_get_bind fun state _ => ?_
            have hending := failsAs_takeGroup plan state.tally body
            dsimp only
            refine keeps_bind (keeps_modify fun _ hinside => hinside) fun _ => ?_
            split
            · next fault hfault => exact keeps_throw (hending fault hfault)
            · exact hreading staysInside_drain
            · exact ih
  unfold run
  refine keeps_get_bind fun state _ => keeps_bind (hgroups _) fun _ => ?_
  exact keeps_modify fun _ hinside => hinside

/-- A slot reports as much doubt as it is in. -/
theorem Slot.inDoubt_fault? {slot : Slot} {fault : Fault} (h : slot.fault? = some fault) :
    fault.inDoubt = slot.inDoubt := by
  unfold Slot.fault? at h
  grind

end Batch

namespace Client

variable {client : Client} {command : Command} {policy : Policy} {slots : List Batch.Slot}
  {method : Method} {request : Envelope.Request} {limits : Limits} {history : History}

/-! ### Single commands -/

theorem isSure_outcome {exchange : Exchange} (hlimits : exchange.limits.isWrite = false)
    (hread : command.isWrite = false)
    (hunclaimed : ∀ response, exchange.reply.value = .ok response → ¬ response.ClaimsDoubt) :
    FailsAs Fault.IsSure (exchange.outcome client command) := by
  rcases outcome_cases exchange client command with
    ⟨header, record, -, hinterpret⟩ | ⟨-, fault, hfault, hnone⟩
  · rw [hinterpret]
    exact (command.failsAs_interpret header record).mono fun _ h => h.inDoubt_eq
  rw [hfault]
  refine failsAs_error ?_
  cases hnone with
  | cancelled => rfl
  | timedOut => exact hlimits
  | transport =>
      rw [hlimits]
      exact Fault.inDoubt_ofStatus _ _
  | @reply response _ hresponse hfailure =>
      refine hfailure.isSure hread ?_
      rintro ⟨delay, given, hmem, hclaims⟩
      obtain ⟨-, rfl⟩ := by simpa [answerIn, FrameReader.ofResponse] using hmem
      exact hunclaimed response hresponse hclaims

theorem isSure_execute {fault : Fault} (hframer : client.framer.IsSure)
    (hread : command.isWrite = false) (hunclaimed : Unclaimed history)
    (h : (client.execute command).run.Ends history (.error fault)) : fault.IsSure := by
  rcases execute_error h with hfault | ⟨own, number, rfl, hown⟩
  · exact hframer.command command fault hfault
  have hsure : own.IsSure := by
    rcases hown with ⟨_, hrefusal⟩ | ⟨last, hlast, houtcome, hlimits⟩
    · exact hrefusal.inDoubt_eq
    · refine isSure_outcome (hlimits.trans hread) hread (fun response hresponse => ?_) own houtcome
      have hmem := mem_of_mem_attemptsIn (List.mem_of_getLast? hlast)
      exact fun hclaims => hunclaimed _ hmem ⟨response, hresponse, hclaims⟩
  rw [Fault.IsSure, hread, hsure]
  rfl

/-! ### Streams -/

theorem isSure_stream {result : Except Fault FrameStream} (hread : limits.isWrite = false)
    (h : (client.stream method request limits).run.Ends history result) :
    FailsAs Fault.IsSure result := by
  unfold stream at h
  rcases ends_run_bind_iff.mp h with
    ⟨fault, hprepare, rfl⟩ | ⟨front, back, call, rfl, hprepare, hexchange⟩
  · exact failsAs_error (prepare_fault hprepare).inDoubt_eq
  cases exchange_cases hexchange with
  | refused => exact failsAs_error rfl
  | waited _ hsettled =>
      cases hsettled with
      | cancelled => exact failsAs_error rfl
      | timedOut => exact failsAs_error hread
      | arrived => exact failsAs_ok _
      | rejected =>
          refine failsAs_error ?_
          rw [hread]
          exact Fault.inDoubt_ofStatus _ _

/-! ### Batches -/

/-- Opening a batch that only reads fails without doubt, or gives the answer of the gateway. -/
theorem openBatch_of_reads {outcome : Except Fault FrameReader} (hframer : client.framer.IsSure)
    (hread : slots.any Batch.Slot.hasWrite = false)
    (h : (client.openBatch policy slots).run.Ends history outcome) :
    FailsAs Fault.IsSure outcome ∧ ∀ reader, outcome = .ok reader →
      reader.limits.isWrite = false ∧
        ∃ call delay, (⟨.openStream call, ⟨delay, .ok reader.stream⟩⟩ : Event) ∈ history := by
  unfold openBatch at h
  dsimp only at h
  rcases ends_run_bind_iff.mp h with
    ⟨fault, hframe, rfl⟩ | ⟨front, timing, bytes, rfl, hframe, htiming⟩
  · obtain ⟨-, hfault⟩ := ends_run_lift_iff.mp hframe
    exact ⟨failsAs_error (hframer.batch _ _ _ hfault.symm), nofun⟩
  obtain ⟨rfl, -⟩ := ends_run_lift_iff.mp hframe
  obtain ⟨now, numbering, rfl, hnumbering⟩ := ends_run_query_bind_iff.mp htiming
  obtain ⟨id, sending, rfl, hsending⟩ := ends_run_query_bind_iff.mp hnumbering
  rcases ends_run_bind_iff.mp hsending with
    ⟨fault, hstream, rfl⟩ | ⟨opening, rest, stream, rfl, hstream, hrest⟩
  · exact ⟨failsAs_error (isSure_stream hread hstream fault rfl), nofun⟩
  · obtain ⟨call, delay, -, hmem⟩ := stream_opened hstream
    obtain ⟨rfl, rfl⟩ := ends_pure_iff.mp hrest
    refine ⟨failsAs_ok _, ?_⟩
    rintro _ ⟨⟩
    exact ⟨hread, call, delay, by simp [hmem]⟩

theorem isSure_after {slot : Batch.Slot} (hread : slot.hasWrite = false)
    (row : Option Batch.AnswerRow) :
    (slot.reset.after row).inDoubt = false ∧ (slot.reset.after row).sweep.inDoubt = false := by
  rw [sweep_after]
  cases row with
  | none => exact ⟨rfl, hread⟩
  | some row =>
      have hsure : (slot.reset.settle (Batch.Outcome.ofRow slot.hasWrite row)).inDoubt = false := by
        refine Bool.eq_false_iff.mpr fun hdoubt => ?_
        rw [Batch.Outcome.hasWrite_of_inDoubt hdoubt] at hread
        cases hread
      exact ⟨hsure, hsure⟩

/-- No slot of a batch that only reads is in doubt, however the batch ends. -/
theorem isSure_slots {outcome : Except Fault Bool} {result : List Batch.Slot}
    (hread : slots.any Batch.Slot.hasWrite = false)
    (h : (client.batch policy slots).Ends history (outcome, result)) :
    ∀ slot ∈ result, slot.inDoubt = false := by
  have hreads : ∀ slot ∈ slots, slot.hasWrite = false := by simpa using hread
  rcases batch_spec h with ⟨verdict, -, rfl, -⟩ | ⟨fault, -, rfl⟩
  · intro slot hmem
    obtain ⟨index, hindex, rfl⟩ := List.mem_mapIdx.mp hmem
    exact (isSure_after (hreads _ (List.getElem_mem hindex)) _).1
  · intro slot hmem
    obtain ⟨answered, hanswered, rfl⟩ := List.mem_map.mp hmem
    obtain ⟨index, hindex, rfl⟩ := List.mem_mapIdx.mp hanswered
    exact (isSure_after (hreads _ (List.getElem_mem hindex)) _).2

theorem isSure_exchangeBatch {outcome : Except Fault Unit} {tally : Batch.Tally}
    (hframer : client.framer.IsSure) (hread : slots.any Batch.Slot.hasWrite = false)
    (hunclaimed : Unclaimed history)
    (h : (client.exchangeBatch policy slots).Ends history (outcome, tally)) :
    FailsAs Fault.IsSure outcome := by
  unfold exchangeBatch at h
  obtain ⟨opening, rest, opened, rfl, hopening, hrest⟩ := ends_bind_iff.mp h
  obtain ⟨hfails, hreader⟩ := openBatch_of_reads hframer hread hopening
  cases opened with
  | error fault =>
      obtain ⟨-, hresult⟩ := ends_pure_iff.mp hrest
      obtain ⟨rfl, -⟩ := Prod.mk.inj hresult
      exact failsAs_error (hfails fault rfl)
  | ok reader =>
      obtain ⟨hlimits, call, delay, hmem⟩ := hreader reader rfl
      obtain ⟨reading, last, ⟨given, state⟩, rfl, hreading, hlast⟩ := ends_bind_iff.mp hrest
      obtain ⟨-, hresult⟩ := ends_pure_iff.mp hlast
      obtain ⟨rfl, -⟩ := Prod.mk.inj hresult
      have hstream := hunclaimed.not_claimsDoubt (List.mem_append_left _ hmem)
      exact (Batch.Reassembly.keeps_run hlimits hstream _ _ _ _ (inside_self _) hreading).2

theorem isSure_batch {outcome : Except Fault Bool} {result : List Batch.Slot}
    (hframer : client.framer.IsSure) (hread : slots.any Batch.Slot.hasWrite = false)
    (hunclaimed : Unclaimed history)
    (h : (client.batch policy slots).Ends history (outcome, result)) :
    FailsAs Fault.IsSure outcome := by
  have hreset : (slots.map Batch.Slot.reset).any Batch.Slot.hasWrite = false := by
    rw [List.any_map]
    exact hread
  unfold batch at h
  dsimp only at h
  split at h
  · obtain ⟨-, hresult⟩ := ends_pure_iff.mp h
    obtain ⟨rfl, -⟩ := Prod.mk.inj hresult
    exact failsAs_ok true
  · obtain ⟨exchanging, rest, ⟨given, tally⟩, rfl, hexchange, hrest⟩ := ends_bind_iff.mp h
    have hfails := isSure_exchangeBatch hframer hreset
      (List.forall_mem_append.mp hunclaimed).1 hexchange
    cases given with
    | ok done =>
        obtain ⟨-, hresult⟩ := ends_pure_iff.mp hrest
        obtain ⟨rfl, -⟩ := Prod.mk.inj hresult
        exact failsAs_ok _
    | error fault =>
        obtain ⟨-, hresult⟩ := ends_pure_iff.mp hrest
        obtain ⟨rfl, -⟩ := Prod.mk.inj hresult
        exact failsAs_error (hfails fault rfl)

/-! ### Record sets -/

/-- What begins a record set of a client. -/
inductive BeginsSet (client : Client) (set : Nat) : Making Stream → Prop where
  | query (policy : QueryPolicy) (statement : Statement) (filter : Partition.Filter) :
      BeginsSet client set (client.query set policy statement filter)
  | scan (policy : ScanPolicy) (ns setName : String) (bins : List String)
      (filter : Partition.Filter) :
      BeginsSet client set (client.scan set policy ns setName bins filter)

theorem reads_ofRequest {set : Nat} {queueSize : Option Nat} {tracker : Partition.Tracker}
    {now : Time} {repeated : Envelope.PartitionFilter → UInt32 → Envelope.Request} :
    (client.ofRequest set method policy queueSize tracker now repeated).producer.Reads := by
  constructor
  · exact fun filter iteration => asks_stream
  · exact fun filter iteration history opened => isSure_stream rfl
  · intro filter iteration history stream h
    obtain ⟨call, delay, -, hmem⟩ := stream_opened h
    exact ⟨call, delay, hmem⟩

theorem failsAs_ofFilter (filter : Partition.Filter) (maxRecords : Nat) :
    FailsAs Fault.IsSure (Partition.Tracker.ofFilter filter maxRecords) := by
  unfold Partition.Tracker.ofFilter
  split
  · exact failsAs_ok _
  · exact failsAs_error rfl

/-- Beginning a record set fails without doubt, or gives a producer that only reads. -/
theorem isSure_begin {set : Nat} {making : Making Stream} {outcome : Except Fault Stream}
    (hframer : client.framer.IsSure) (hbegins : BeginsSet client set making)
    (h : making.run.Ends history outcome) :
    FailsAs Fault.IsSure outcome ∧ ∀ begun, outcome = .ok begun → begun.producer.Reads := by
  have hreads : ∀ tracker begun, Repeats client set tracker begun →
      FailsAs Fault.IsSure (.ok begun : Except Fault Stream) ∧
        ∀ given, (.ok begun : Except Fault Stream) = .ok given → given.producer.Reads := by
    rintro tracker _ ⟨-⟩
    refine ⟨failsAs_ok _, ?_⟩
    rintro _ ⟨⟩
    exact reads_ofRequest
  cases hbegins with
  | query policy statement filter =>
      rcases query_cases h with ⟨fault, rfl, hwhy⟩ | ⟨tracker, begun, rfl, -, hrepeats⟩
      · refine ⟨failsAs_error ?_, nofun⟩
        rcases hwhy with htracker | hmessage
        · exact failsAs_ofFilter _ _ _ htracker
        · exact Statement.failsAs_message hframer _ _ hmessage
      · exact hreads tracker begun hrepeats
  | scan policy ns setName bins filter =>
      rcases scan_cases h with ⟨fault, rfl, htracker⟩ | ⟨tracker, begun, rfl, -, hrepeats⟩
      · exact ⟨failsAs_error (failsAs_ofFilter _ _ _ htracker), nofun⟩
      · exact hreads tracker begun hrepeats

/-- What the reader of a set is told of what came from the queue is as sure as that. -/
theorem isSure_accept {reader : RecordSet.Reader} {item : Option RecordSet.Item} {fault : Fault}
    (hitem : ∀ given, item = some given → given.IsSure)
    (h : (reader.accept item).2 = some (.error fault)) : fault.IsSure := by
  cases item with
  | none =>
      obtain ⟨⟩ := h
      rfl
  | some item =>
      cases item with
      | row key record => cases h
      | finished filter => cases h
      | failed given =>
          obtain rfl := Except.error.inj (Option.some.inj h)
          exact hitem _ rfl given rfl

/-! ### All reads -/

/-- Unless the gateway claims doubt, no read is in doubt: no fault of a command that reads, no fault and
no slot of a batch that only reads, no fault with which a record set fails to begin, and none that its
reader is told of what the producer puts on the queue, or of a queue that ends without a last item. -/
theorem isSure_of_reads (hframer : client.framer.IsSure) :
    (∀ command history fault, command.isWrite = false → Unclaimed history →
      (client.execute command).run.Ends history (.error fault) → fault.inDoubt = false) ∧
    (∀ policy slots history outcome result, slots.any Batch.Slot.hasWrite = false →
      Unclaimed history → (client.batch policy slots).Ends history (outcome, result) →
      (∀ fault, outcome = .error fault → fault.inDoubt = false) ∧
        ∀ slot ∈ result, ∀ fault, slot.fault? = some fault → fault.inDoubt = false) ∧
    (∀ set making history outcome, BeginsSet client set making →
      making.run.Ends history outcome →
      (∀ fault, outcome = .error fault → fault.inDoubt = false) ∧
        ∀ begun later, outcome = .ok begun → Unclaimed later →
          (begun.producer.run begun.tracker).Ends later () →
          ∀ (reader : RecordSet.Reader) (item : Option RecordSet.Item) (fault : Fault),
            (∀ given, item = some given →
              ∃ number isRead, (⟨.offer number given, isRead⟩ : Event) ∈ later) →
            (reader.accept item).2 = some (.error fault) → fault.inDoubt = false) := by
  refine ⟨fun command history fault hread hunclaimed h => isSure_execute hframer hread hunclaimed h,
    ?_, ?_⟩
  · intro policy slots history outcome result hread hunclaimed h
    refine ⟨isSure_batch hframer hread hunclaimed h, fun slot hmem fault hfault => ?_⟩
    rw [Batch.Slot.inDoubt_fault? hfault]
    exact isSure_slots hread h slot hmem
  · intro set making history outcome hbegins h
    obtain ⟨hfails, hreads⟩ := isSure_begin hframer hbegins h
    refine ⟨hfails, fun begun later hbegun hunclaimed hrun reader item fault hoffered => ?_⟩
    refine isSure_accept fun given hgiven => ?_
    obtain ⟨number, isRead, hmem⟩ := hoffered given hgiven
    exact RecordSet.isSure_of_offered (hreads begun hbegun) hunclaimed hrun hmem

/-- Surroundings in which the transport answers every request too late. -/
def late : Surroundings
  | _, .send _ => ⟨some 0, .error ⟨.deadlineExceeded, "", []⟩⟩
  | _, .openStream _ => ⟨some 0, .error ⟨.deadlineExceeded, "", []⟩⟩
  | _, question => calmAnswer question

theorem unclaimed_late (past : History) (question : Ask) :
    ¬ Event.ClaimsDoubt ⟨question, late past question⟩ := by
  cases question with
  | send call => rintro ⟨response, ⟨⟩, -⟩
  | openStream call => rintro ⟨stream, ⟨⟩, -⟩
  | _ => exact id

theorem ends_late {α : Type} (flow : Flow α) :
    ∃ history, (flow.runIn late []).2 = history ∧ Unclaimed history ∧
      flow.Ends history (flow.runIn late []).1 :=
  ends_runIn_where (P := fun event => ¬ event.ClaimsDoubt) late unclaimed_late flow []

theorem isSure_bareClient : bareClient.framer.IsSure :=
  ⟨fun _ => failsAs_ok _, fun _ _ => failsAs_ok _, fun _ => failsAs_ok _⟩

/-- A read that may be tried once. -/
def getOnce : Command where
  key := {}
  policy := { maxRetries := 0 }
  action := .get none

/-- A scan of one partition. -/
def smallScan : Making Stream :=
  bareClient.scan 0 {} "" "" [] (.one 0)

/-- The fault that an event puts on a queue. -/
def offeredFault? : Event → Option Fault
  | ⟨.offer _ (.failed fault), _⟩ => some fault
  | _ => none

/-- A command, a batch and a scan of which the transport says that they came too late. -/
theorem late_reads_sure :
    (∃ history fault, (bareClient.execute getOnce).run.Ends history (.error fault) ∧
      fault.kind = .timeout ∧ fault.inDoubt = false) ∧
    (∃ history fault result,
      (bareClient.batch {} [Batch.Slot.read {} none]).Ends history (.error fault, result) ∧
      fault.kind = .timeout ∧ fault.inDoubt = false) ∧
    ∃ (begun : Stream) (later : History) (fault : Fault) (number : Nat) (isRead : Bool),
      (begun.producer.run begun.tracker).Ends later () ∧
      (⟨.offer number (.failed fault), isRead⟩ : Event) ∈ later ∧ fault.kind = .timeout ∧
      fault.inDoubt = false := by
  obtain ⟨hcommands, hbatches, hsets⟩ := isSure_of_reads isSure_bareClient
  refine ⟨?_, ?_, ?_⟩
  · obtain ⟨history, -, hunclaimed, hends⟩ := ends_late (bareClient.execute getOnce).run
    have hlate : (faultOf? ((bareClient.execute getOnce).run.runIn late []).1).map (·.kind) =
        some .timeout := by
      decide +kernel
    obtain ⟨fault, hfault, hkind⟩ := Option.map_eq_some_iff.mp hlate
    rw [eq_error_of_faultOf? hfault] at hends
    exact ⟨history, fault, hends, hkind, hcommands _ _ _ rfl hunclaimed hends⟩
  · obtain ⟨history, -, hunclaimed, hends⟩ := ends_late (bareClient.batch {} [Batch.Slot.read {} none])
    rcases hran : ((bareClient.batch {} [Batch.Slot.read {} none]).runIn late []).1 with
      ⟨outcome, result⟩
    have hlate : (faultOf? ((bareClient.batch {} [Batch.Slot.read {} none]).runIn late []).1.1).map
        (·.kind) = some .timeout := by
      decide +kernel
    rw [hran] at hlate hends
    obtain ⟨fault, hfault, hkind⟩ := Option.map_eq_some_iff.mp hlate
    obtain rfl := eq_error_of_faultOf? hfault
    exact ⟨history, fault, result, hends, hkind, (hbatches _ _ _ _ _ rfl hunclaimed hends).1 _ rfl⟩
  · obtain ⟨history, -, -, hbegins⟩ := ends_late smallScan.run
    have hoffers : (match (smallScan.run.runIn late []).1 with
        | .ok begun =>
          (((begun.producer.run begun.tracker).runIn late []).2.findSome? offeredFault?).map (·.kind)
        | .error _ => none) = some .timeout := by
      decide +kernel
    rcases hran : (smallScan.run.runIn late []).1 with fault | begun
    · rw [hran] at hoffers
      cases hoffers
    rw [hran] at hoffers hbegins
    obtain ⟨later, hlater, hunclaimed, hends⟩ := ends_late (begun.producer.run begun.tracker)
    obtain ⟨fault, hfound, hkind⟩ := Option.map_eq_some_iff.mp hoffers
    obtain ⟨⟨question, answer⟩, hmem, hoffered⟩ := List.exists_of_findSome?_eq_some hfound
    rw [hlater] at hmem
    cases question with
    | offer number item =>
        cases item with
        | failed given =>
            obtain rfl := Option.some.inj hoffered
            have hsure := (hsets _ _ _ _ (.scan {} "" "" [] (.one 0)) hbegins).2 begun later rfl
              hunclaimed hends {} (some (.failed given)) given
              (fun _ hgiven => ⟨number, answer, Option.some.inj hgiven ▸ hmem⟩) rfl
            exact ⟨begun, later, given, number, answer, hends, hmem, hkind, hsure⟩
        | _ => cases hoffered
    | _ => cases hoffered

/-- A read that the gateway answers with a code of its own, and with a claim of doubt. -/
def doubtfulReply : List (Delayed (Except Status Envelope.Response)) :=
  [⟨some 0, .ok { status := 14, inDoubt := true }⟩]

/-- A read can be in doubt: the client does not ask whether what is in doubt was a write. -/
theorem read_in_doubt :
    ¬ ∀ (client : Client) (command : Command) (history : History) (fault : Fault),
      client.framer.IsSure → command.isWrite = false →
      (client.execute command).run.Ends history (.error fault) → fault.inDoubt = false := by
  intro hall
  obtain ⟨history, -, hends⟩ :=
    ends_runIn (scripted doubtfulReply) (bareClient.execute getOnce).run []
  have hdoubt : (faultOf? ((bareClient.execute getOnce).run.runIn (scripted doubtfulReply) []).1).map
      (·.inDoubt) = some true := by
    decide +kernel
  obtain ⟨fault, hfault, hdoubt⟩ := Option.map_eq_some_iff.mp hdoubt
  rw [eq_error_of_faultOf? hfault] at hends
  rw [hall _ _ _ _ isSure_bareClient rfl hends] at hdoubt
  cases hdoubt

end Client
end RecordGateway
