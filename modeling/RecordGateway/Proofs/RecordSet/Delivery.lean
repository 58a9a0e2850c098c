import RecordGateway.Proofs.RecordSet.Account

/-!
Filling a set over several rounds. Every round leaves the account of the set in order, whether it comes to
its end or breaks off (`rounds_deliversRest`), and the set ends only when no partition is open. So a set
that ends has delivered every record once (`rounds_deliver_all`), however many rounds it took.
-/

namespace RecordGateway.RecordSet

open RecordGateway.Flow
open RecordGateway.Partition (Tracker ofDigest)

variable {holdings : Holdings} {ids : List Nat} {due : Nat → List DataRow} {delivered : List DataRow}
  {rows : List RoundRow} {tracker : Tracker}

/-! ### Rounds -/

/-- A producer whose rounds are answered from the holdings when the surroundings are as they are said to be.
Opening a round puts nothing on the queue. -/
structure Serving (holdings : Holdings) (gateway : Event → Prop) (producer : Producer) : Prop where
  quiet : ∀ filter iteration history opened,
    (producer.openRound filter iteration).Ends history opened → queued producer.set history = []
  honest : ∀ filter iteration history stream,
    (producer.openRound filter iteration).Ends history (.ok stream) →
      (∀ event ∈ history, gateway event) → Honest holdings filter stream

variable {gateway : Event → Prop} {producer : Producer} {history : History}

/-- Unless nobody reads the set, a round has put some rows of an honest answer on the queue and noted
them; all of them if it comes to its end. -/
theorem round_spec {filter : Envelope.PartitionFilter} {result : Except Fault RoundEnd}
    {last : Tracker} (hserving : Serving holdings gateway producer)
    (hgateway : ∀ event ∈ history, gateway event) (hlimit : tracker.maxRecords = 0)
    (h : (producer.round tracker filter).Ends history (result, last)) :
    result = .ok .abandoned ∨
      ∃ rows, last = rows.foldl Round.note tracker ∧
        queued producer.set history = (dataRows rows).map DataRow.toQueue ∧
        Serves holdings filter rows ∧
        (result = .ok .finished ∧ Completes holdings filter rows ∨ ∃ fault, result = .error fault) := by
  obtain ⟨front, back, opened, rfl, hopen, hread⟩ := ends_bind_iff.mp h
  have hquiet := hserving.quiet _ _ _ _ hopen
  cases opened with
  | error fault =>
      obtain ⟨rfl, hpair⟩ := ends_pure_iff.mp hread
      obtain ⟨rfl, rfl⟩ := Prod.mk.inj hpair
      refine .inr ⟨[], rfl, ?_, ⟨?_, ?_⟩, .inr ⟨fault, rfl⟩⟩
      · rw [List.append_nil, hquiet]
        rfl
      · simp [dataRows]
      · exact fun status _ => List.nil_prefix
  | ok stream =>
      rw [List.forall_mem_append] at hgateway
      have hhonest := hserving.honest _ _ _ _ hopen hgateway.1
      obtain ⟨reading, silent, ⟨given, final⟩, rfl, hrun, hsilent⟩ := ends_bind_iff.mp hread
      obtain ⟨rfl, hpair⟩ := ends_pure_iff.mp hsilent
      obtain ⟨rfl, hlast⟩ := Prod.mk.inj hpair
      have hspec := Round.run_spec (Round.limitReached_eq_false hlimit) hrun
      rw [← hlast] at hspec
      have hqueued : ∀ rows : List RoundRow,
          queued producer.set reading = (dataRows rows).map DataRow.toQueue →
          queued producer.set (front ++ (reading ++ [])) =
            (dataRows rows).map DataRow.toQueue := by
        intro rows hrows
        rw [queued_append, hquiet, List.append_nil, hrows]
        rfl
      cases hspec with
      | abandoned => exact .inl rfl
      | limited _ _ hfull =>
          -- Without a limit none is reached.
          have hlimited := hfull.1
          rw [Round.maxRecords_foldl_note, hlimit] at hlimited
          exact absurd hlimited (Nat.lt_irrefl 0)
      | finished hall hgraceful _ =>
          exact .inr ⟨_, rfl, hqueued _ hall, hhonest.serves, .inl ⟨rfl, hhonest.completes hgraceful⟩⟩
      | broken hbegins hsome _ =>
          exact .inr ⟨_, rfl, hqueued _ hsome, hhonest.serves.of_prefix hbegins, .inr ⟨_, rfl⟩⟩

/-- What follows a round that does not end the set by itself. -/
def Producer.goOn (producer : Producer) (retries : Nat) (tracker : Tracker) : Flow (Option Item) := do
  if tracker.isComplete then
    return some (.finished tracker.resumeFilter)
  match retries with
  | 0 => return some (.failed (Producer.exhausted tracker))
  | retries + 1 => do
    if producer.sleepBetweenRetries ≠ 0 then
      Flow.sleep producer.sleepBetweenRetries
    producer.rounds retries tracker

theorem Producer.rounds_eq (producer : Producer) (retries : Nat) (tracker : Tracker) :
    producer.rounds retries tracker = do
      if ← Flow.query (.isCancelled (.recordSet producer.set)) then
        return some (.failed .callCancelled)
      let (result, last) ← producer.round tracker.startRound tracker.roundFilter
      match result with
      | .ok .abandoned => return none
      | .ok .limitReached => return some (.finished last.resumeFilter)
      | .ok .finished => producer.goOn retries last.finishRound
      | .error fault =>
        if isPassing fault then producer.goOn retries last.failRound
        else return some (.failed { fault with iteration := some last.iteration }) := by
  cases retries <;> rfl

/-- After the history nothing is to come any more of what was due. -/
def Fills (holdings : Holdings) (ids : List Nat) (due : Nat → List DataRow)
    (delivered : List DataRow) (set : Nat) (history : History) : Prop :=
  ∃ moved last, queued set history = moved.map DataRow.toQueue ∧
    Accounted holdings ids due (delivered ++ moved) last ∧ ∀ status ∈ last, status.done = true

theorem Fills.later {set : Nat} {front back : History} {moved : List DataRow}
    (hfront : queued set front = moved.map DataRow.toQueue)
    (h : Fills holdings ids due (delivered ++ moved) set back) :
    Fills holdings ids due delivered set (front ++ back) := by
  obtain ⟨rest, last, hback, haccount, hdone⟩ := h
  refine ⟨moved ++ rest, last, ?_, ?_, hdone⟩
  · rw [queued_append, hfront, hback, List.map_append]
  · rwa [← List.append_assoc]

/-- An activity that goes on from any account of a tracker and ends the set only when it has delivered the
rest. -/
def DeliversRest (holdings : Holdings) (ids : List Nat) (due : Nat → List DataRow)
    (gateway : Event → Prop) (set : Nat) (activity : Tracker → Flow (Option Item)) : Prop :=
  ∀ tracker delivered history resume, tracker.maxRecords = 0 →
    Accounted holdings ids due delivered tracker.statuses →
      (∀ event ∈ history, gateway event) →
        (activity tracker).Ends history (some (.finished resume)) →
          Fills holdings ids due delivered set history

theorem isComplete_iff (hlimit : tracker.maxRecords = 0) :
    tracker.isComplete = true ↔ ∀ status ∈ tracker.statuses, status.done = true := by
  rw [Tracker.isComplete, Round.limitReached_eq_false hlimit, Bool.or_false, List.all_eq_true]

theorem fills_of_complete {set : Nat} (hlimit : tracker.maxRecords = 0)
    (haccount : Accounted holdings ids due delivered tracker.statuses)
    (hcomplete : tracker.isComplete = true) : Fills holdings ids due delivered set [] := by
  refine ⟨[], tracker.statuses, rfl, ?_, (isComplete_iff hlimit).mp hcomplete⟩
  rwa [List.append_nil]

theorem goOn_zero_deliversRest :
    DeliversRest holdings ids due gateway producer.set (producer.goOn 0) := by
  intro tracker delivered history resume hlimit haccount _ h
  rw [Producer.goOn] at h
  split at h
  · next hcomplete =>
      obtain ⟨rfl, -⟩ := ends_pure_iff.mp h
      exact fills_of_complete hlimit haccount hcomplete
  · obtain ⟨-, hvalue⟩ := ends_pure_iff.mp h
    cases hvalue

/-- Between two rounds nothing comes but perhaps a pause. -/
theorem goOn_succ_deliversRest {retries : Nat}
    (hrounds : DeliversRest holdings ids due gateway producer.set (producer.rounds retries)) :
    DeliversRest holdings ids due gateway producer.set (producer.goOn (retries + 1)) := by
  intro tracker delivered history resume hlimit haccount hgateway h
  rw [Producer.goOn] at h
  split at h
  · next hcomplete =>
      obtain ⟨rfl, -⟩ := ends_pure_iff.mp h
      exact fills_of_complete hlimit haccount hcomplete
  · dsimp only at h
    split at h
    · obtain ⟨pause, back, span, rfl, hpause, hback⟩ := ends_bind_iff.mp h
      rw [List.forall_mem_append] at hgateway
      have hsilent : queued producer.set pause = ([] : List DataRow).map DataRow.toQueue :=
        queued_of_local (asks_sleep _ _ _ hpause)
      refine Fills.later hsilent ?_
      rw [List.append_nil]
      exact hrounds _ _ _ _ hlimit haccount hgateway.2 hback
    · exact hrounds _ _ _ _ hlimit haccount hgateway h

/-- One round, and whatever follows it. -/
theorem rounds_deliversRest_of_goOn {retries : Nat} (hserving : Serving holdings gateway producer)
    (hgoOn : DeliversRest holdings ids due gateway producer.set (producer.goOn retries)) :
    DeliversRest holdings ids due gateway producer.set (producer.rounds retries) := by
  intro tracker delivered history resume hlimit haccount hgateway h
  rw [Producer.rounds_eq] at h
  obtain ⟨cancelled, rest, rfl, hrest⟩ := ends_query_bind_iff.mp h
  rw [List.forall_mem_cons] at hgateway
  cases cancelled with
  | true =>
      obtain ⟨-, hvalue⟩ := ends_pure_iff.mp hrest
      cases hvalue
  | false =>
      obtain ⟨reading, back, ⟨result, last⟩, rfl, hround, hback⟩ := ends_bind_iff.mp hrest
      rw [List.forall_mem_append] at hgateway
      have hstart : tracker.startRound.maxRecords = 0 := hlimit
      -- A round that nobody reads does not end the set, and no other round leaves rows unnoted.
      rcases round_spec hserving hgateway.2.1 hstart hround with
        rfl | ⟨rows, rfl, hqueued, hserves, hresult⟩
      · obtain ⟨-, hvalue⟩ := ends_pure_iff.mp hback
        cases hvalue
      have hnoted : (rows.foldl Round.note tracker.startRound).maxRecords = 0 :=
        (Round.maxRecords_foldl_note rows _).trans hlimit
      refine @Fills.later _ _ _ _ _ (_ :: reading) back _ hqueued ?_
      rcases hresult with ⟨rfl, hcompletes⟩ | ⟨fault, rfl⟩
      · have hfinish := haccount.finish hserves hcompletes
        exact hgoOn (Tracker.finishRound _) _ _ _ hnoted hfinish hgateway.2.2 hback
      · dsimp only at hback
        split at hback
        · exact hgoOn (Tracker.failRound _) _ _ _ hnoted (haccount.fail hserves) hgateway.2.2 hback
        · obtain ⟨-, hvalue⟩ := ends_pure_iff.mp hback
          cases hvalue

/-- Rounds end a set only when all is delivered. The induction is on the retries that are left. -/
theorem rounds_deliversRest (hserving : Serving holdings gateway producer) (retries : Nat) :
    DeliversRest holdings ids due gateway producer.set (producer.rounds retries) := by
  induction retries with
  | zero => exact rounds_deliversRest_of_goOn hserving goOn_zero_deliversRest
  | succ retries ih => exact rounds_deliversRest_of_goOn hserving (goOn_succ_deliversRest ih)

/-! ### Whole sets -/

def Covers (filter : Partition.Filter) (id : Nat) : Prop :=
  filter.first ≤ id ∧ id < filter.first + filter.count

instance (filter : Partition.Filter) (id : Nat) : Decidable (Covers filter id) :=
  inferInstanceAs (Decidable (_ ∧ _))

/-- The records that a filter is to bring of a partition. -/
def Holdings.owed (holdings : Holdings) (filter : Partition.Filter) (id : Nat) : List DataRow :=
  holdings.after id (if id = filter.first then filter.digest else none)

def queuedPartition? (row : Key × Record) : Option Nat :=
  row.1.digest.map ofDigest

theorem filter_toQueue (id : Nat) (rows : List DataRow) :
    (rows.map DataRow.toQueue).filter (fun row => queuedPartition? row == some id) =
      (inPartition id rows).map DataRow.toQueue :=
  List.filter_map

/-- Before the first round all that is due is still to come. -/
theorem accounted_ofFilter {filter : Partition.Filter} (hfresh : filter.statuses = none)
    (h : Tracker.ofFilter filter 0 = .ok tracker) :
    Accounted holdings (List.range' filter.first filter.count) (holdings.owed filter) []
        tracker.statuses ∧ tracker.maxRecords = 0 := by
  rw [Tracker.ofFilter] at h
  split at h
  · next hvalid =>
      obtain rfl := Except.ok.inj h
      rw [hfresh, Option.getD_none]
      refine ⟨⟨Tracker.ids_freshStatuses .., Tracker.ordered_freshStatuses .., ?_, ?_, ?_, ?_⟩, rfl⟩
      · intro status hmem
        have hid : status.id ∈ List.range' filter.first filter.count := by
          rw [← Tracker.ids_freshStatuses filter.first filter.count filter.digest]
          exact List.mem_map_of_mem hmem
        rw [List.mem_range'_1] at hid
        rw [Partition.Filter.isValid, decide_eq_true_eq] at hvalid
        omega
      · intro status hmem
        rw [(Tracker.mem_freshStatuses hmem).1]
        rfl
      · intro status hmem hdone
        rw [(Tracker.mem_freshStatuses hmem).2] at hdone
        cases hdone
      · nofun
  · cases h

/-- A set that ends has put on its queue every record that its filter is to bring, once and in the order
of its partition, however many rounds it took, and nothing else. -/
theorem rounds_deliver_all {filter resume : Partition.Filter} {retries : Nat}
    (hserving : Serving holdings gateway producer) (hfresh : filter.statuses = none)
    (htracker : Tracker.ofFilter filter 0 = .ok tracker)
    (hgateway : ∀ event ∈ history, gateway event)
    (h : (producer.rounds retries tracker).Ends history (some (.finished resume))) :
    (∀ id, Covers filter id →
      (queued producer.set history).filter (fun row => queuedPartition? row == some id) =
        (holdings.owed filter id).map DataRow.toQueue) ∧
      ∀ row ∈ queued producer.set history, ∃ id, Covers filter id ∧ queuedPartition? row = some id := by
  obtain ⟨haccount, hlimit⟩ := @accounted_ofFilter holdings _ _ hfresh htracker
  obtain ⟨rows, last, hqueued, hlast, hdone⟩ :=
    rounds_deliversRest hserving retries tracker [] history resume hlimit haccount hgateway h
  have hcovers : ∀ id, id ∈ List.range' filter.first filter.count ↔ Covers filter id := fun id =>
    List.mem_range'_1
  rw [List.nil_append] at hlast
  rw [hqueued]
  constructor
  · intro id hid
    rw [← hcovers, ← hlast.listed] at hid
    obtain ⟨status, hmem, rfl⟩ := List.mem_map.mp hid
    have hall := hlast.balanced status hmem
    rw [hlast.exhausted status hmem (hdone status hmem), List.append_nil] at hall
    rw [filter_toQueue, hall]
  · intro row hrow
    obtain ⟨delivered, hmem, rfl⟩ := List.mem_map.mp hrow
    obtain ⟨id, hid, hpartition⟩ := hlast.covered delivered hmem
    exact ⟨id, (hcovers id).mp hid, hpartition⟩

/-! ### A small set

Two partitions are read in three rounds. The first round breaks off when it has brought a record of
each, the second brings the rest of the one partition and refuses the other, and the third finds that
nothing is left. -/

/-- The digest with a given place in a given partition. -/
def smallDigest (id place : UInt8) : Digest :=
  ⟨id :: (List.replicate 18 0 ++ [place]), rfl⟩

/-- A row with an empty record under a digest. -/
def keyedRow (digest : Digest) : Bytes :=
  [22, 0, 0, 0, 0, 0, 0, 0, 0, 7, 0, 0, 0, 0, 0, 0, 0, 0, 0, 1, 0, 0] ++
    (BigEndian.encode 4 21 ++ (4 :: digest.bytes))

def keyedRecord (digest : Digest) : DataRow :=
  ({ digest }, { generation := 7, expiration := 0 })

def keyedRoundRow (digest : Digest) : RoundRow :=
  .data (keyedRecord digest).1 (keyedRecord digest).2

def smallRecords : Nat → List DataRow
  | 0 => [keyedRecord (smallDigest 0 1), keyedRecord (smallDigest 0 2)]
  | 1 => [keyedRecord (smallDigest 1 1)]
  | _ => []

def smallHoldings : Holdings where
  records := smallRecords
  rank digest := (digest.bytes.getLast?.getD 0).toNat
  placed := by
    intro id index row h
    match id, index with
    | 0, 0 | 0, 1 | 1, 0 =>
        obtain rfl := Option.some.inj h
        exact ⟨_, rfl, rfl, rfl⟩
    | 0, _ + 2 | 1, _ + 1 | _ + 2, _ => cases h

def firstAnswer : Bytes :=
  Group.plain (keyedRow (smallDigest 1 1) ++ keyedRow (smallDigest 0 1))

/-- The bytes of the second answer, which end with the row that refuses a partition and the row after
the last. -/
def secondAnswer : Bytes :=
  Group.plain (keyedRow (smallDigest 0 2) ++ Row.bareRow 0 11 1 4 ++ (Row.bareRow 0 0 0 1 ++ []))

/-- What the rounds ask for, and the frames of the answers. -/
def smallRounds : List (Envelope.PartitionFilter × List Arrival) :=
  [({ count := 2, statuses := [{ id := 0 }, { id := 1 }] },
      [⟨some 0, .ok { payload := firstAnswer, hasNext := true }⟩,
        ⟨some 0, .error ⟨.unavailable, "", []⟩⟩]),
    ({ count := 2, retry := true
       statuses := [{ id := 0, digest := some (smallDigest 0 1).bytes, retry := true },
         { id := 1, digest := some (smallDigest 1 1).bytes, retry := true }] },
      [⟨some 0, .ok { payload := secondAnswer }⟩]),
    ({ first := 1, count := 1, retry := true
       statuses := [{ id := 1, digest := some (smallDigest 1 1).bytes, retry := true }] },
      [⟨some 0, .ok {}⟩])]

/-- A producer that knows the answers to these rounds only. -/
def smallProducer : Producer where
  set := 3
  deadline := none
  reporter := {}
  maxRetries := 2
  sleepBetweenRetries := 0
  openRound filter _ := pure <|
    match smallRounds.lookup filter with
    | some arrivals => .ok { arrivals }
    | none => .error (.ofCode .partitionUnavailable)

def smallTracker : Tracker where
  statuses := Tracker.freshStatuses 0 2 none
  maxRecords := 0

/-- Calm surroundings in which somebody reads the queue. -/
def reading : Surroundings
  | _, .offer .. => true
  | _, question => calmAnswer question

def Item.isFinished : Option Item → Bool
  | some (.finished _) => true
  | _ => false

theorem Item.eq_finished {item : Option Item} (h : Item.isFinished item = true) :
    ∃ resume, item = some (.finished resume) := by
  rcases item with _ | ⟨row⟩ | ⟨resume⟩ | ⟨fault⟩
  · cases h
  · cases h
  · exact ⟨resume, rfl⟩
  · cases h

theorem harvest_firstAnswer :
    Row.harvest readRow (firstAnswer ++ []) =
      { rows := [keyedRoundRow (smallDigest 1 1), keyedRoundRow (smallDigest 0 1)], rest := [] } := by
  have hone : Row.Spells readRow (keyedRow (smallDigest 1 1))
      (some (keyedRoundRow (smallDigest 1 1))) := rfl
  have hother : Row.Spells readRow (keyedRow (smallDigest 0 1))
      (some (keyedRoundRow (smallDigest 0 1))) := rfl
  have hrows := Row.unfold_body local_readRow needy_readRow (.cons hone hother.single)
  rw [firstAnswer, Row.harvest_of_more ((Group.packs_plain (by decide)).first?_eq []) hrows]
  rfl

theorem harvest_secondAnswer :
    Row.harvest readRow (secondAnswer ++ []) =
      { rows := [keyedRoundRow (smallDigest 0 2), .partitionDone 1 .partitionUnavailable]
        ending := .ok true, rest := [] } := by
  have hone : Row.Spells readRow (keyedRow (smallDigest 0 2))
      (some (keyedRoundRow (smallDigest 0 2))) := rfl
  have hrefused : Row.Spells readRow (Row.bareRow 0 11 1 4)
      (some (.partitionDone 1 .partitionUnavailable)) := rfl
  have hmark : Row.Spells readRow (Row.bareRow 0 0 0 1) none := rfl
  have hrows := Row.unfold_last_body local_readRow needy_readRow [] (.cons hone hrefused.single) hmark
  rw [secondAnswer, Row.harvest_of_end ((Group.packs_plain (by decide)).first?_eq []) hrows (by simp)]

theorem honest_smallRounds :
    ∀ round ∈ smallRounds, Honest smallHoldings round.1 { arrivals := round.2 } := by
  simp only [smallRounds, List.forall_mem_cons]
  refine ⟨?_, ?_, ?_, nofun⟩
  · refine .of_harvest harvest_firstAnswer ⟨by decide +kernel, ?_⟩ ?_
    · simp only [List.forall_mem_cons]
      exact ⟨⟨[keyedRecord (smallDigest 0 2)], rfl⟩, ⟨[], rfl⟩, nofun⟩
    · rintro (hended | ⟨-, -, hlast⟩)
      · have hending := congrArg Row.Harvest.ending harvest_firstAnswer
        cases hending.symm.trans hended
      · cases hlast
  · refine .of_harvest harvest_secondAnswer ⟨by decide +kernel, ?_⟩ fun _ => ?_
    · simp only [List.forall_mem_cons]
      exact ⟨⟨[], rfl⟩, ⟨[], rfl⟩, nofun⟩
    · simp only [Completes, List.forall_mem_cons]
      exact ⟨fun _ => rfl, nofun, nofun⟩
  · refine .of_harvest rfl ⟨nofun, ?_⟩ fun _ => ?_
    · simp only [List.forall_mem_cons]
      exact ⟨⟨[], rfl⟩, nofun⟩
    · simp only [Completes, List.forall_mem_cons]
      exact ⟨fun _ => rfl, nofun⟩

theorem serving_smallProducer : Serving smallHoldings (fun _ => True) smallProducer := by
  constructor
  · intro filter iteration history opened h
    obtain ⟨rfl, -⟩ := ends_pure_iff.mp h
    rfl
  · intro filter iteration history stream h _
    obtain ⟨-, hopened⟩ := ends_pure_iff.mp h
    cases hround : smallRounds.lookup filter with
    | none =>
        rw [hround] at hopened
        cases hopened
    | some arrivals =>
        rw [hround] at hopened
        obtain rfl := Except.ok.inj hopened
        obtain ⟨before, later, hrounds, -⟩ := List.lookup_eq_some_iff.mp hround
        refine honest_smallRounds (filter, arrivals) ?_
        rw [hrounds]
        exact List.mem_append_right before (.head later)

theorem small_set_delivered :
    ∃ history resume,
      (smallProducer.rounds 2 smallTracker).Ends history (some (.finished resume)) ∧
      (queued 3 history).filter (fun row => queuedPartition? row == some 0) =
        (smallRecords 0).map DataRow.toQueue ∧
      (queued 3 history).filter (fun row => queuedPartition? row == some 1) =
        (smallRecords 1).map DataRow.toQueue := by
  obtain ⟨history, -, hends⟩ := ends_runIn reading (smallProducer.rounds 2 smallTracker) []
  have hfinished : Item.isFinished ((smallProducer.rounds 2 smallTracker).runIn reading []).1 = true := by
    decide +kernel
  obtain ⟨resume, hresume⟩ := Item.eq_finished hfinished
  rw [hresume] at hends
  have htracker : Tracker.ofFilter (.range 0 2) 0 = .ok smallTracker := rfl
  obtain ⟨hall, -⟩ := rounds_deliver_all serving_smallProducer rfl htracker (fun _ _ => trivial) hends
  exact ⟨history, resume, hends, hall 0 (by decide), hall 1 (by decide)⟩

end RecordGateway.RecordSet
