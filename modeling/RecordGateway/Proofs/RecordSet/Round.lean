import RecordGateway.Proofs.Flow.Asks
import RecordGateway.Proofs.FrameReader.Progress
import RecordGateway.Proofs.Partition.Tracker
import RecordGateway.Proofs.Row.Harvest
import RecordGateway.RecordSet.Round

/-!
Reading a round. The rows that a round puts on its queue are the first of the rows that its answer holds,
and the tracker has noted exactly these (`run_spec`), as long as somebody reads the queue. A round that
comes to its end has taken all of them, and the answer said that they are all (`Graceful`); a round that
reaches the limit on the records has taken no row more than the limit allows (`Full`).
-/

namespace RecordGateway

open RecordGateway.Flow FrameReader Row

/-- The row that an event puts on the queue of a set, if somebody reads the queue. -/
def Event.queued? (set : Nat) : Event → Option (Key × Record)
  | ⟨.offer number (.row key record), isRead⟩ =>
    if number = set ∧ isRead = true then some (key, record) else none
  | _ => none

namespace RecordSet

/-- The rows that a history puts on the queue of a set, the first one first. -/
def queued (set : Nat) (history : History) : List (Key × Record) :=
  history.filterMap (Event.queued? set)

abbrev DataRow := KeyEcho × Record

def DataRow.toQueue (row : DataRow) : Key × Record :=
  (row.1.toKey, row.2)

/-- The row, unless it only marks the end of a partition. -/
def RoundRow.data? : RoundRow → Option DataRow
  | .data key record => some (key, record)
  | .partitionDone .. => none

def dataRows (rows : List RoundRow) : List DataRow :=
  rows.filterMap RoundRow.data?

@[simp] theorem queued_append (set : Nat) (front back : History) :
    queued set (front ++ back) = queued set front ++ queued set back :=
  List.filterMap_append

theorem queued_eq_nil {set : Nat} {history : History}
    (hkeeps : ∀ event ∈ history, event.question.KeepsQueues) : queued set history = [] := by
  rw [queued, List.filterMap_eq_nil_iff]
  intro event hmem
  have hevent := hkeeps event hmem
  obtain ⟨question, answer⟩ := event
  cases question with
  | offer => exact hevent.elim
  | _ => rfl

theorem queued_of_local {set : Nat} {history : History}
    (hlocal : ∀ event ∈ history, event.question.IsLocal) : queued set history = [] :=
  queued_eq_nil fun event hmem => (hlocal event hmem).keepsQueues

@[simp] theorem dataRows_append (front back : List RoundRow) :
    dataRows (front ++ back) = dataRows front ++ dataRows back :=
  List.filterMap_append

theorem headerFirst_readRow : readRow.HeaderFirst := by
  unfold readRow
  refine ⟨_, fun header => ?_, rfl⟩
  split
  · exact Reader.Local.guard (local_pure none)
  · split
    · refine (local_skipKey _).bind fun _ => ?_
      exact ((local_readRecord header).map _).bind fun _ => local_pure _
    · refine Reader.Local.guard ?_
      exact (local_readKeyed header).bind fun _ => local_pure _

theorem local_readRow : readRow.Local :=
  local_of_headerFirst headerFirst_readRow

theorem needy_readRow : readRow.Needy :=
  needy_of_headerFirst headerFirst_readRow

namespace Round

variable {set : Nat} {start : List Arrival} {taken : Nat} {consumed : Bytes} {state final : Round}
  {history : History} {rows : List RoundRow} {tracker : Partition.Tracker}

def note (tracker : Partition.Tracker) : RoundRow → Partition.Tracker
  | .data key _ => tracker.deliver key.digest
  | .partitionDone id code => tracker.report id code

theorem maxRecords_note (tracker : Partition.Tracker) (row : RoundRow) :
    (note tracker row).maxRecords = tracker.maxRecords := by
  cases row with
  | data key record => rfl
  | partitionDone id code =>
      rw [note, Partition.Tracker.report]
      split <;> rfl

theorem maxRecords_foldl_note (rows : List RoundRow) (tracker : Partition.Tracker) :
    (rows.foldl note tracker).maxRecords = tracker.maxRecords := by
  induction rows generalizing tracker with
  | nil => rfl
  | cons row rows ih => rw [List.foldl_cons, ih, maxRecords_note]

theorem limitReached_eq_false (hlimit : tracker.maxRecords = 0) : tracker.limitReached = false := by
  simp [Partition.Tracker.limitReached, hlimit]

/-- There is a limit on the records, and exactly so many have been delivered. -/
def Full (tracker : Partition.Tracker) : Prop :=
  0 < tracker.maxRecords ∧ tracker.delivered = tracker.maxRecords

theorem limitReached_report (id : Nat) (code : ResultCode) :
    (tracker.report id code).limitReached = tracker.limitReached := by
  rw [Partition.Tracker.report]
  split <;> rfl

/-- Records are delivered one at a time, so none is delivered beyond the limit. -/
theorem full_of_deliver {digest : Option Digest} (hopen : tracker.limitReached = false)
    (hreached : (tracker.deliver digest).limitReached = true) : Full (tracker.deliver digest) := by
  have hbefore := of_decide_eq_false hopen
  have hafter : 0 < tracker.maxRecords ∧ tracker.maxRecords ≤ tracker.delivered + 1 :=
    of_decide_eq_true hreached
  refine ⟨hafter.1, ?_⟩
  change tracker.delivered + 1 = tracker.maxRecords
  omega

theorem yields_reading_iff {α : Type} {activity : FrameReader.Reading α}
    {result : Except Fault α} :
    Yields (reading activity) state history result final ↔
      ∃ reader, Yields activity state.reader history result reader ∧
        final = { state with reader } :=
  yields_focus_iff Round.reader fun state reader => { state with reader }

/-! ### Delivering rows -/

/-- Delivering rows leaves the reader alone and does not fail, and no row makes it the end of the round that
comes when all is read. -/
theorem deliver_ends {result : Except Fault (Option RoundEnd)}
    (h : Yields (deliver set rows) state history result final) :
    final.reader = state.reader ∧
      ∃ roundEnd, result = .ok roundEnd ∧ roundEnd ≠ some .finished := by
  induction rows generalizing state history with
  | nil =>
      obtain ⟨-, rfl, rfl⟩ := yields_pure_iff.mp h
      exact ⟨rfl, none, rfl, by decide⟩
  | cons row rows ih =>
      cases row with
      | partitionDone id code =>
          rw [deliver, yields_modify_bind_iff] at h
          have hnext := ih h
          exact hnext
      | data key record =>
          rw [deliver, yields_modify_bind_iff] at h
          obtain ⟨isRead, rest, -, hrest⟩ := yields_query_bind_iff.mp h
          split at hrest
          · obtain ⟨-, rfl, rfl⟩ := yields_pure_iff.mp hrest
            exact ⟨rfl, _, rfl, by decide⟩
          · rw [yields_get_bind_iff] at hrest
            split at hrest
            · obtain ⟨-, rfl, rfl⟩ := yields_pure_iff.mp hrest
              exact ⟨rfl, _, rfl, by decide⟩
            · have hnext := ih hrest
              exact hnext

/-- What delivering rows comes to. All of them have been put on the queue and noted, or the first of them
up to the one that brings the limit, or somebody has stopped reading the queue. -/
inductive Delivers (set : Nat) (rows : List RoundRow) (state : Round) (history : History) :
    Except Fault (Option RoundEnd) → Round → Prop where
  | all :
      arrivalCount history = 0 →
      queued set history = (dataRows rows).map DataRow.toQueue →
      (rows.foldl note state.tracker).limitReached = false →
      Delivers set rows state history (.ok none) { state with tracker := rows.foldl note state.tracker }
  | limited {front : List RoundRow} :
      front <+: rows →
      queued set history = (dataRows front).map DataRow.toQueue →
      Full (front.foldl note state.tracker) →
      Delivers set rows state history (.ok (some .limitReached))
        { state with tracker := front.foldl note state.tracker }
  | abandoned {item : Item} {last : Round} :
      ⟨.offer set item, false⟩ ∈ history →
      Delivers set rows state history (.ok (some .abandoned)) last

/-- A row that does not end the round comes before what the other rows come to. -/
theorem Delivers.later {row : RoundRow} {front back : History}
    {result : Except Fault (Option RoundEnd)}
    (hcount : arrivalCount front = 0)
    (hfront : queued set front = (dataRows [row]).map DataRow.toQueue)
    (h : Delivers set rows { state with tracker := note state.tracker row } back result final) :
    Delivers set (row :: rows) state (front ++ back) result final := by
  have hqueued : ∀ later : List RoundRow, queued set back = (dataRows later).map DataRow.toQueue →
      queued set (front ++ back) = (dataRows (row :: later)).map DataRow.toQueue := by
    intro later hlater
    rw [queued_append, hfront, hlater, ← List.map_append, ← dataRows_append]
    rfl
  cases h with
  | all hnone hback hopen =>
      refine .all ?_ (hqueued _ hback) hopen
      rw [arrivalCount_append, hcount, hnone]
  | @limited some hbegins hback hfull =>
      exact .limited ((List.prefix_append_right_inj [row]).mpr hbegins) (hqueued some hback) hfull
  | abandoned hmem => exact .abandoned (List.mem_append_right front hmem)

theorem deliver_spec {result : Except Fault (Option RoundEnd)}
    (hopen : state.tracker.limitReached = false)
    (h : Yields (deliver set rows) state history result final) :
    Delivers set rows state history result final := by
  induction rows generalizing state history with
  | nil =>
      obtain ⟨rfl, rfl, rfl⟩ := yields_pure_iff.mp h
      exact .all rfl rfl hopen
  | cons row rows ih =>
      cases row with
      | partitionDone id code =>
          rw [deliver, yields_modify_bind_iff] at h
          have hnext : (note state.tracker (.partitionDone id code)).limitReached = false :=
            (limitReached_report id code).trans hopen
          exact @Delivers.later _ _ _ _ _ [] history _ rfl rfl (ih hnext h)
      | data key record =>
          rw [deliver, yields_modify_bind_iff] at h
          obtain ⟨isRead, rest, rfl, hrest⟩ := yields_query_bind_iff.mp h
          cases isRead with
          | false =>
              obtain ⟨rfl, rfl, -⟩ := yields_pure_iff.mp hrest
              exact .abandoned (List.mem_singleton.mpr rfl)
          | true =>
              have hoffer : queued set [⟨.offer set (.row key.toKey record), true⟩] =
                  (dataRows [.data key record]).map DataRow.toQueue := by
                simp [queued, Event.queued?, dataRows, RoundRow.data?, DataRow.toQueue]
              rw [if_neg (by decide), yields_get_bind_iff] at hrest
              split at hrest
              · next hreached =>
                  obtain ⟨rfl, rfl, rfl⟩ := yields_pure_iff.mp hrest
                  refine @Delivers.limited _ _ _ _ [.data key record] ?_ hoffer ?_
                  · exact List.prefix_append [_] rows
                  · exact full_of_deliver hopen hreached
              · next hreached =>
                  have hnext : (note state.tracker (.data key record)).limitReached = false :=
                    Bool.eq_false_iff.mpr hreached
                  exact @Delivers.later _ _ _ _ _ [_] rest _ rfl hoffer (ih hnext hrest)

/-! ### Reading groups -/

/-- The answer says that the rows in these bytes are all there are: there is a row after the last, or the
last frame comes when all groups are read. -/
def Graceful (start : List Arrival) (bytes : Bytes) : Prop :=
  (harvest readRow bytes).ending = .ok true ∨
    (harvest readRow bytes).ending = .ok false ∧ (harvest readRow bytes).rest = [] ∧
      reachesLast start = true

/-- What reading the groups in the rest of an answer comes to. Some of the first rows have been put on
the queue and noted; all of them, if the round comes to its end. -/
inductive ReadGroups (set : Nat) (start : List Arrival) (rest : Bytes) (tracker : Partition.Tracker)
    (history : History) : Except Fault RoundEnd → Partition.Tracker → Prop where
  | abandoned {item : Item} {last : Partition.Tracker} :
      ⟨.offer set item, false⟩ ∈ history →
      ReadGroups set start rest tracker history (.ok .abandoned) last
  | limited {rows : List RoundRow} :
      rows <+: (harvest readRow rest).rows →
      queued set history = (dataRows rows).map DataRow.toQueue →
      Full (rows.foldl note tracker) →
      ReadGroups set start rest tracker history (.ok .limitReached) (rows.foldl note tracker)
  | finished :
      queued set history = (dataRows (harvest readRow rest).rows).map DataRow.toQueue →
      Graceful start rest →
      ((harvest readRow rest).rows.foldl note tracker).limitReached = false →
      ReadGroups set start rest tracker history (.ok .finished)
        ((harvest readRow rest).rows.foldl note tracker)
  | broken {fault : Fault} {rows : List RoundRow} :
      rows <+: (harvest readRow rest).rows →
      queued set history = (dataRows rows).map DataRow.toQueue →
      (rows.foldl note tracker).limitReached = false →
      ReadGroups set start rest tracker history (.error fault) (rows.foldl note tracker)

/-- A group whose rows do not end the round comes before what more groups come to. -/
theorem ReadGroups.later {front middle back : History} {wire body more : Bytes}
    {result : Except Fault RoundEnd} {last : Partition.Tracker}
    (hwire : ∀ rest, Group.first? (wire ++ rest) = some (body, rest))
    (hrows : unfold readRow body.length { rest := body } = (rows, .ok false))
    (hfront : queued set front = [])
    (hmiddle : queued set middle = (dataRows rows).map DataRow.toQueue)
    (h : ReadGroups set start more (rows.foldl note tracker) back result last) :
    ReadGroups set start (wire ++ more) tracker (front ++ (middle ++ back)) result last := by
  have hharvest := harvest_of_more (hwire more) hrows
  have hall : (harvest readRow (wire ++ more)).rows = rows ++ (harvest readRow more).rows := by
    rw [hharvest]
  have hbegins : ∀ {later : List RoundRow}, later <+: (harvest readRow more).rows →
      rows ++ later <+: (harvest readRow (wire ++ more)).rows := by
    intro later hlater
    rw [hall]
    exact (List.prefix_append_right_inj rows).mpr hlater
  have hqueued : ∀ {later : List RoundRow},
      queued set back = (dataRows later).map DataRow.toQueue →
      queued set (front ++ (middle ++ back)) = (dataRows (rows ++ later)).map DataRow.toQueue := by
    intro later hlater
    rw [queued_append, queued_append, hfront, hmiddle, hlater, dataRows_append, List.map_append]
    rfl
  cases h with
  | abandoned hmem => exact .abandoned (List.mem_append_right _ (List.mem_append_right _ hmem))
  | limited hsome hback hfull =>
      rw [← List.foldl_append] at hfull ⊢
      exact .limited (hbegins hsome) (hqueued hback) hfull
  | finished hback hgraceful hopen =>
      rw [← List.foldl_append, ← hall] at hopen ⊢
      refine .finished ?_ ?_ hopen
      · rw [hall]
        exact hqueued hback
      · rw [Graceful, hharvest]
        exact hgraceful
  | broken hsome hback hopen =>
      rw [← List.foldl_append] at hopen ⊢
      exact .broken (hbegins hsome) (hqueued hback) hopen

/-- A group whose rows bring the limit ends the round there. -/
theorem ReadGroups.limit {wire body : Bytes} {front : List RoundRow} {ending : Except Fault Bool}
    (hwire : ∀ rest, Group.first? (wire ++ rest) = some (body, rest))
    (hrows : unfold readRow body.length { rest := body } = (rows, ending)) (more : Bytes)
    (hbegins : front <+: rows) (hqueued : queued set history = (dataRows front).map DataRow.toQueue)
    (hfull : Full (front.foldl note tracker)) :
    ReadGroups set start (wire ++ more) tracker history (.ok .limitReached)
      (front.foldl note tracker) := by
  refine .limited (hbegins.trans ?_) hqueued hfull
  by_cases hending : ending = .ok false
  · rw [hending] at hrows
    rw [harvest_of_more (hwire more) hrows]
    exact List.prefix_append _ _
  · have hall : (harvest readRow (wire ++ more)).rows = rows := by
      rw [harvest_of_end (hwire more) hrows hending]
    exact hall ▸ List.prefix_rfl

/-- A group with a row that cannot be read ends the round; the rows before it have been delivered. -/
theorem ReadGroups.stop {wire body : Bytes} {fault : Fault}
    (hwire : ∀ rest, Group.first? (wire ++ rest) = some (body, rest))
    (hrows : unfold readRow body.length { rest := body } = (rows, .error fault)) (more : Bytes)
    (hqueued : queued set history = (dataRows rows).map DataRow.toQueue)
    (hopen : (rows.foldl note tracker).limitReached = false) :
    ReadGroups set start (wire ++ more) tracker history (.error fault) (rows.foldl note tracker) := by
  have hharvest := harvest_of_end (hwire more) hrows (by simp)
  have hall : (harvest readRow (wire ++ more)).rows = rows := by rw [hharvest]
  exact .broken (hall ▸ List.prefix_rfl) hqueued hopen

/-- A group with the row after the last ends the round as it should. -/
theorem ReadGroups.finish {wire body : Bytes}
    (hwire : ∀ rest, Group.first? (wire ++ rest) = some (body, rest))
    (hrows : unfold readRow body.length { rest := body } = (rows, .ok true)) (more : Bytes)
    (hqueued : queued set history = (dataRows rows).map DataRow.toQueue)
    (hopen : (rows.foldl note tracker).limitReached = false) :
    ReadGroups set start (wire ++ more) tracker history (.ok .finished)
      (rows.foldl note tracker) := by
  have hharvest := harvest_of_end (hwire more) hrows (by simp)
  have hall : (harvest readRow (wire ++ more)).rows = rows := by rw [hharvest]
  rw [← hall] at hqueued hopen ⊢
  exact .finished hqueued (.inl (by rw [hharvest])) hopen

/-- The induction is on the fuel; the bytes consumed and the progress so far carry it. -/
theorem readGroups_spec {fuel : Nat} {result : Except Fault RoundEnd} {rest : Bytes}
    (hreached : Reached start taken consumed state.reader) (hrest : payload start = consumed ++ rest)
    (hfuel : rest.length < fuel) (hopen : state.tracker.limitReached = false)
    (h : Yields (readGroups set fuel) state history result final) :
    ReadGroups set start rest state.tracker history result final.tracker := by
  induction fuel generalizing state taken consumed history rest with
  | zero => exact absurd hfuel (Nat.not_lt_zero _)
  | succ fuel ih =>
      rw [readGroups] at h
      rcases yields_bind_iff.mp h with
        ⟨fault, hread, rfl⟩ | ⟨front, back, found, next, rfl, hread, hback⟩
      · obtain ⟨reader, hgroup, rfl⟩ := yields_reading_iff.mp hread
        exact .broken List.nil_prefix (queued_of_local (asks_readGroup _ _ _ hgroup)) hopen
      obtain ⟨reader, hgroup, rfl⟩ := yields_reading_iff.mp hread
      have hfront : queued set front = [] := queued_of_local (asks_readGroup _ _ _ hgroup)
      cases readGroup_spec hreached hgroup with
      | finished hfinal hended hnil =>
          obtain ⟨rfl, rfl, rfl⟩ := yields_pure_iff.mp hback
          obtain ⟨hall, hlast⟩ := hfinal.complete hended
          rw [hall, hfinal.payload_eq, hnil] at hrest
          obtain rfl := List.append_cancel_left hrest
          rw [List.append_nil]
          exact .finished hfront (.inr ⟨rfl, rfl, hlast⟩) hopen
      | @group body wire _ hfinal hwire =>
          -- Of the bytes that are left the group takes some; the rest comes after what the buffer holds.
          obtain ⟨more, rfl⟩ := hfinal.rest_eq hrest
          generalize reader.buffer ++ more = later at hrest hfuel ⊢
          rcases hrows : unfold readRow body.length { rest := body } with ⟨rows, ending⟩
          simp only [hrows] at hback
          have hbefore : (Round.mk reader state.tracker).tracker.limitReached = false := hopen
          have hqueued : ∀ {middle : History} {some : List RoundRow},
              queued set middle = (dataRows some).map DataRow.toQueue →
              queued set (front ++ middle) = (dataRows some).map DataRow.toQueue := by
            intro middle some hmiddle
            rw [queued_append, hfront, hmiddle]
            rfl
          rcases yields_bind_iff.mp hback with
            ⟨fault, hdeliver, rfl⟩ | ⟨middle, last, roundEnd, delivered, rfl, hdeliver, hlast⟩
          · cases deliver_spec hbefore hdeliver
          cases deliver_spec hbefore hdeliver with
          | abandoned hmem =>
              obtain ⟨rfl, rfl, rfl⟩ := yields_pure_iff.mp hlast
              exact .abandoned (List.mem_append_right _ (List.mem_append_left _ hmem))
          | limited hbegins hsome hfull =>
              obtain ⟨rfl, rfl, rfl⟩ := yields_pure_iff.mp hlast
              rw [List.append_nil]
              exact .limit hwire hrows later hbegins (hqueued hsome) hfull
          | all hcount hall hopen =>
              rcases ending with fault | ended
              · obtain ⟨rfl, rfl, rfl⟩ := yields_throw_iff.mp hlast
                rw [List.append_nil]
                exact .stop hwire hrows later (hqueued hall) hopen
              · cases ended with
                | true =>
                    obtain ⟨rfl, rfl, rfl⟩ := yields_pure_iff.mp hlast
                    rw [List.append_nil]
                    exact .finish hwire hrows later (hqueued hall) hopen
                | false =>
                    have hnext : Reached start (taken + arrivalCount front) (consumed ++ wire)
                        (Round.mk reader (rows.foldl note state.tracker)).reader := hfinal
                    have hwidth := Group.length_of_first? (hwire [])
                    have hheader : 0 < Group.headerLength := by decide
                    rw [List.append_nil] at hwidth
                    rw [List.length_append] at hfuel
                    refine .later hwire hrows hfront hall (ih hnext ?_ ?_ hopen hlast)
                    · rw [hrest, List.append_assoc]
                    · omega

theorem run_spec {stream : FrameStream} {limits : Limits} {reporter : Fault.Reporter}
    {result : Except Fault RoundEnd} (hopen : tracker.limitReached = false)
    (h : Yields (run set) ⟨{ stream, limits, reporter }, tracker⟩ history result final) :
    ReadGroups set stream.arrivals (payload stream.arrivals) tracker history result
      final.tracker := by
  rw [run, yields_get_bind_iff] at h
  have hbeginning : Reached stream.arrivals 0 []
      (Round.mk { stream, limits, reporter } tracker).reader :=
    reached_beginning stream limits reporter
  refine readGroups_spec hbeginning rfl ?_ hopen h
  exact Nat.lt_succ_of_le (length_payload_le_pending { stream, limits, reporter })

end Round
end RecordSet
end RecordGateway
