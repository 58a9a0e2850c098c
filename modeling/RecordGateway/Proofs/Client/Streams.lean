import RecordGateway.Client.Streams
import RecordGateway.Proofs.Client.Opening
import RecordGateway.Proofs.RecordSet.Delivery

/-!
The rounds of queries and scans. A round hands over one request, which repeats the partitions that it asks
for, and its frames are those of the answer to that request (`stream_opened`). So queries and scans are
answered from what a gateway holds if the gateway answers every request that asks for partitions from it
(`serving_query`, `serving_scan`).
-/

namespace RecordGateway

open RecordGateway.Flow RecordSet

/-- The partitions that a request asks for, if it is for records of partitions. -/
def Envelope.Request.partitions? (request : Envelope.Request) : Option Envelope.PartitionFilter :=
  (request.query.bind (·.partitions)).or (request.scan.bind (·.partitions))

/-- A request for partitions is answered from the holdings, or refused. -/
def Event.AnswersFrom (holdings : Holdings) : Event → Prop
  | ⟨.openStream call, answer⟩ => ∀ filter stream,
    call.request.partitions? = some filter → answer.value = .ok stream → Honest holdings filter stream
  | _ => True

namespace Client

variable {client : Client} {method : Method} {request : Envelope.Request} {limits : Limits}
  {history : History} {holdings : Holdings}

/-- Opening a stream leaves the queues as they are. -/
theorem asks_stream : (client.stream method request limits).run.Asks Ask.KeepsQueues := by
  unfold stream exchange
  refine asks_run_bind (asks_prepare.mono fun _ => Ask.IsLocal.keepsQueues) fun call => ?_
  refine asks_run_bind (asks_run_query trivial) fun cancelled => ?_
  cases cancelled with
  | true => exact asks_pure _
  | false =>
      refine asks_run_bind (asks_run_query trivial) fun answer => ?_
      refine asks_run_bind (asks_run_query trivial) fun now => ?_
      refine asks_run_bind (asks_run_query trivial) fun waited => ?_
      cases waited with
      | cancelled => exact asks_pure _
      | timedOut => exact asks_pure _
      | arrived =>
          dsimp only
          split
          · exact asks_pure _
          · exact asks_run_bind (asks_rejected.mono fun _ => Ask.IsLocal.keepsQueues) fun _ =>
              asks_pure _

/-- A stream that is opened is what the gateway answered to the request. -/
theorem stream_opened {stream : FrameStream}
    (h : (client.stream method request limits).run.Ends history (.ok stream)) :
    ∃ call delay, call.request = request ∧
      (⟨.openStream call, ⟨delay, .ok stream⟩⟩ : Event) ∈ history := by
  cases stream_cases h with
  | @opened front call delay _ now due hrequest _ =>
      exact ⟨call, delay, hrequest, by simp⟩

/-- The rounds of a stream whose requests name the partitions of the round. -/
theorem serving_ofRequest {set : Nat} {policy : Policy} {queueSize : Option Nat}
    {tracker : Partition.Tracker} {now : Time}
    {repeated : Envelope.PartitionFilter → UInt32 → Envelope.Request}
    (hrepeated : ∀ filter iteration, (repeated filter iteration).partitions? = some filter) :
    Serving holdings (Event.AnswersFrom holdings)
      (client.ofRequest set method policy queueSize tracker now repeated).producer := by
  constructor
  · intro filter iteration history opened h
    exact queued_eq_nil (asks_stream _ _ h)
  · intro filter iteration history stream h hgateway
    obtain ⟨call, delay, hrequest, hmem⟩ := stream_opened h
    refine hgateway _ hmem filter stream ?_ rfl
    rw [hrequest, hrepeated]

/-! ### Queries and scans -/

/-- A stream that repeats a request, which names the partitions of the round. -/
inductive Repeats (client : Client) (set : Nat) (tracker : Partition.Tracker) : Stream → Prop where
  | intro {method : Method} {policy : Policy} {queueSize : Option Nat} {now : Time}
      {repeated : Envelope.PartitionFilter → UInt32 → Envelope.Request} :
      (∀ filter iteration, (repeated filter iteration).partitions? = some filter) →
      Repeats client set tracker
        (client.ofRequest set method policy queueSize tracker now repeated)

variable {set : Nat} {filter : Partition.Filter} {begun : Stream} {outcome : Except Fault Stream}

/-- A query is refused over its filter or over its statement, or begins. -/
theorem query_cases {policy : QueryPolicy} {statement : Statement}
    (h : (client.query set policy statement filter).run.Ends history outcome) :
    (∃ fault, outcome = .error fault ∧
      (Partition.Tracker.ofFilter filter statement.maxRecords.toNat = .error fault ∨
        statement.message client.framer = .error fault)) ∨
    ∃ tracker begun, outcome = .ok begun ∧
      Partition.Tracker.ofFilter filter statement.maxRecords.toNat = .ok tracker ∧
      Repeats client set tracker begun := by
  unfold query at h
  rcases ends_run_bind_iff.mp h with
    ⟨fault, htracker, rfl⟩ | ⟨_, rest, tracker, -, htracker, hrest⟩
  · exact .inl ⟨fault, rfl, .inl (ends_run_lift_iff.mp htracker).2.symm⟩
  rcases ends_run_bind_iff.mp hrest with
    ⟨fault, hmessage, rfl⟩ | ⟨_, rest, message, -, -, hrest⟩
  · exact .inl ⟨fault, rfl, .inr (ends_run_lift_iff.mp hmessage).2.symm⟩
  obtain ⟨id, rest, -, hrest⟩ := ends_run_query_bind_iff.mp hrest
  obtain ⟨now, rest, -, hrest⟩ := ends_run_query_bind_iff.mp hrest
  obtain ⟨-, rfl⟩ := ends_pure_iff.mp hrest
  exact .inr ⟨tracker, _, rfl, (ends_run_lift_iff.mp htracker).2.symm, .intro fun _ _ => rfl⟩

/-- A scan is refused over its filter, or begins. -/
theorem scan_cases {policy : ScanPolicy} {ns setName : String} {bins : List String}
    (h : (client.scan set policy ns setName bins filter).run.Ends history outcome) :
    (∃ fault, outcome = .error fault ∧
      Partition.Tracker.ofFilter filter policy.maxRecords.toNat = .error fault) ∨
    ∃ tracker begun, outcome = .ok begun ∧
      Partition.Tracker.ofFilter filter policy.maxRecords.toNat = .ok tracker ∧
      Repeats client set tracker begun := by
  unfold scan at h
  rcases ends_run_bind_iff.mp h with
    ⟨fault, htracker, rfl⟩ | ⟨_, rest, tracker, -, htracker, hrest⟩
  · exact .inl ⟨fault, rfl, (ends_run_lift_iff.mp htracker).2.symm⟩
  obtain ⟨id, rest, -, hrest⟩ := ends_run_query_bind_iff.mp hrest
  obtain ⟨now, rest, -, hrest⟩ := ends_run_query_bind_iff.mp hrest
  obtain ⟨-, rfl⟩ := ends_pure_iff.mp hrest
  exact .inr ⟨tracker, _, rfl, (ends_run_lift_iff.mp htracker).2.symm, .intro fun _ _ => rfl⟩

/-- A query has the progress of its filter, and its rounds are answered as its gateway answers. -/
theorem serving_query {policy : QueryPolicy} {statement : Statement}
    (h : (client.query set policy statement filter).run.Ends history (.ok begun)) :
    Partition.Tracker.ofFilter filter statement.maxRecords.toNat = .ok begun.tracker ∧
      Serving holdings (Event.AnswersFrom holdings) begun.producer := by
  rcases query_cases h with ⟨fault, hfault, -⟩ | ⟨tracker, _, hbegun, htracker, hrepeats⟩
  · cases hfault
  obtain rfl := Except.ok.inj hbegun
  obtain ⟨hrepeated⟩ := hrepeats
  exact ⟨htracker, serving_ofRequest hrepeated⟩

theorem serving_scan {policy : ScanPolicy} {ns setName : String} {bins : List String}
    (h : (client.scan set policy ns setName bins filter).run.Ends history (.ok begun)) :
    Partition.Tracker.ofFilter filter policy.maxRecords.toNat = .ok begun.tracker ∧
      Serving holdings (Event.AnswersFrom holdings) begun.producer := by
  rcases scan_cases h with ⟨fault, hfault, -⟩ | ⟨tracker, _, hbegun, htracker, hrepeats⟩
  · cases hfault
  obtain rfl := Except.ok.inj hbegun
  obtain ⟨hrepeated⟩ := hrepeats
  exact ⟨htracker, serving_ofRequest hrepeated⟩

end Client
end RecordGateway
