import RecordGateway.Proofs.RecordSet.Doubt
import RecordGateway.Proofs.RecordSet.Headed

/-!
The course of a set. A set is filled in rounds, and what a round comes to decides whether another follows
(`Played.verdict`). `Course` lists the rounds of a set in order, and every run of a producer has one
(`rounds_course`). While somebody reads the queue, a round notes exactly the rows that it puts there
(`Plays.noted`), so the limit on the records holds over all rounds together, and the set ends with one item
that says why (`Course.concluded`).
-/

namespace RecordGateway

/-- The item that an event puts on the queue of a set, if somebody reads the queue. -/
def Event.put? (set : Nat) : Event → Option RecordSet.Item
  | ⟨.offer number item, isRead⟩ => if number = set ∧ isRead = true then some item else none
  | _ => none

namespace RecordSet

open RecordGateway.Flow FrameReader
open RecordGateway.Partition (Tracker)

/-- The items that a history puts on the queue of a set, the first one first. -/
def itemsPut (set : Nat) (history : History) : List Item :=
  history.filterMap (Event.put? set)

@[simp] theorem itemsPut_append (set : Nat) (front back : History) :
    itemsPut set (front ++ back) = itemsPut set front ++ itemsPut set back :=
  List.filterMap_append

def Item.ofRow (row : Key × Record) : Item :=
  .row row.1 row.2

theorem itemsPut_of_offersRows {set : Nat} {history : History}
    (hrows : ∀ event ∈ history, event.question.OffersRows) :
    itemsPut set history = (queued set history).map Item.ofRow := by
  induction history with
  | nil => rfl
  | cons event history ih =>
      rw [List.forall_mem_cons] at hrows
      have hevent : Event.put? set event = (Event.queued? set event).map Item.ofRow := by
        obtain ⟨question, answer⟩ := event
        cases question with
        | offer number item =>
            cases item with
            | row key record =>
                rw [Event.put?, Event.queued?]
                split <;> rfl
            | finished filter => exact hrows.1.elim
            | failed fault => exact hrows.1.elim
        | _ => rfl
      rw [itemsPut, queued, List.filterMap_cons, List.filterMap_cons, hevent]
      cases Event.queued? set event with
      | none => exact ih hrows.2
      | some row => exact congrArg (Item.ofRow row :: ·) (ih hrows.2)

/-- Whoever is offered an item for the queue of a set reads it. -/
def Attended (set : Nat) (history : History) : Prop :=
  ∀ item, (⟨.offer set item, false⟩ : Event) ∉ history

theorem attended_append_iff {set : Nat} {front back : History} :
    Attended set (front ++ back) ↔ Attended set front ∧ Attended set back := by
  simp only [Attended, List.mem_append, not_or, forall_and]

theorem Attended.tail {set : Nat} {event : Event} {history : History}
    (h : Attended set (event :: history)) : Attended set history :=
  fun item hmem => h item (List.mem_cons_of_mem event hmem)

/-! ### One round -/

/-- A round as it went: the progress before it, what the request for it gave, the rows that it put on the
queue, how it came to its end, and the progress then. -/
structure Played where
  before : Tracker
  opened : Except Fault FrameStream
  rows : List (Key × Record)
  result : Except Fault RoundEnd
  after : Tracker

/-- What a round leads to: the end of the set, with a last item if somebody reads it, or another round. -/
inductive Verdict where
  | ends (item : Option Item)
  | goesOn (tracker : Tracker)

/-- The set ends if nothing is left to do. -/
def Verdict.of (tracker : Tracker) : Verdict :=
  if tracker.isComplete then .ends (some (.finished tracker.resumeFilter)) else .goesOn tracker

namespace Played

def filter (round : Played) : Envelope.PartitionFilter :=
  round.before.roundFilter

/-- The number of the round. -/
def iteration (round : Played) : Nat :=
  round.before.startRound.iteration

def verdict (round : Played) : Verdict :=
  match round.result with
  | .ok .abandoned => .ends none
  | .ok .limitReached => .ends (some (.finished round.after.resumeFilter))
  | .ok .finished => .of round.after.finishRound
  | .error fault =>
    if Producer.isPassing fault then .of round.after.failRound
    else .ends (some (.failed { fault with iteration := some round.after.iteration }))

end Played

variable {producer : Producer} {history : History} {round : Played} {rounds : List Played}
  {item : Option Item} {tracker next : Tracker} {retries count : Nat}

/-- A producer plays a round: it asks for it, with the number of the round, and reads what it gets. -/
inductive Plays (producer : Producer) : History → Played → Prop where
  | refused {opening : History} {before : Tracker} {fault : Fault} :
      (producer.openRound before.roundFilter before.startRound.iteration).Ends opening
        (.error fault) →
      Plays producer opening ⟨before, .error fault, [], .error fault, before.startRound⟩
  | answered {opening reading : History} {before : Tracker} {stream : FrameStream}
      {result : Except Fault RoundEnd} {final : Round} :
      (producer.openRound before.roundFilter before.startRound.iteration).Ends opening (.ok stream) →
      Yields (Round.run producer.set)
        ⟨{ stream, limits := producer.limits, reporter := producer.reporter }, before.startRound⟩
        reading result final →
      Plays producer (opening ++ reading)
        ⟨before, .ok stream, queued producer.set reading, result, final.tracker⟩

theorem plays_of_round {result : Except Fault RoundEnd} {last : Tracker}
    (h : (producer.round tracker.startRound tracker.roundFilter).Ends history (result, last)) :
    ∃ round, Plays producer history round ∧ round.before = tracker ∧ round.result = result ∧
      round.after = last := by
  obtain ⟨opening, back, opened, rfl, hopen, hback⟩ := ends_bind_iff.mp h
  cases opened with
  | error fault =>
      obtain ⟨rfl, hpair⟩ := ends_pure_iff.mp hback
      obtain ⟨rfl, rfl⟩ := Prod.mk.inj hpair
      rw [List.append_nil]
      exact ⟨_, .refused hopen, rfl, rfl, rfl⟩
  | ok stream =>
      obtain ⟨reading, silent, ⟨given, final⟩, rfl, hrun, hsilent⟩ := ends_bind_iff.mp hback
      obtain ⟨rfl, hpair⟩ := ends_pure_iff.mp hsilent
      obtain ⟨rfl, rfl⟩ := Prod.mk.inj hpair
      rw [List.append_nil]
      exact ⟨_, .answered hopen hrun, rfl, rfl, rfl⟩

/-- The rounds of a set with a given number of retries left, and its last item. Each round but the last
leads to another; before a round the set may be cancelled. -/
inductive Course (producer : Producer) :
    Nat → Tracker → History → List Played → Option Item → Prop where
  | cancelled {retries : Nat} {tracker : Tracker} :
      Course producer retries tracker [⟨.isCancelled (.recordSet producer.set), true⟩] []
        (some (.failed .callCancelled))
  | last {retries : Nat} {front : History} {round : Played} {item : Option Item} :
      Plays producer front round → round.verdict = .ends item →
      Course producer retries round.before
        (⟨.isCancelled (.recordSet producer.set), false⟩ :: front) [round] item
  | exhausted {front : History} {round : Played} {next : Tracker} :
      Plays producer front round → round.verdict = .goesOn next →
      Course producer 0 round.before
        (⟨.isCancelled (.recordSet producer.set), false⟩ :: front) [round]
        (some (.failed (Producer.exhausted next)))
  | again {retries : Nat} {front pause back : History} {round : Played} {next : Tracker}
      {rounds : List Played} {item : Option Item} :
      Plays producer front round → round.verdict = .goesOn next →
      (∀ event ∈ pause, event.question.IsLocal) →
      Course producer retries next back rounds item →
      Course producer (retries + 1) round.before
        (⟨.isCancelled (.recordSet producer.set), false⟩ :: (front ++ (pause ++ back)))
        (round :: rounds) item

/-- The rounds with a given number of retries left have a course. -/
abbrev HasCourse (producer : Producer) (retries : Nat) : Prop :=
  ∀ tracker history item, (producer.rounds retries tracker).Ends history item →
    ∃ rounds, Course producer retries tracker history rounds item

/-- A round that leads on if something is left to do, and what follows it. -/
theorem course_of_goOn {front back : History}
    (hfewer : ∀ left, retries = left + 1 → HasCourse producer left)
    (hplays : Plays producer front round) (hverdict : round.verdict = .of next)
    (h : (producer.goOn retries next).Ends back item) :
    ∃ rounds, Course producer retries round.before
      (⟨.isCancelled (.recordSet producer.set), false⟩ :: (front ++ back)) rounds item := by
  unfold Producer.goOn at h
  split at h
  · next hcomplete =>
      obtain ⟨rfl, rfl⟩ := ends_pure_iff.mp h
      rw [Verdict.of, if_pos hcomplete] at hverdict
      rw [List.append_nil]
      exact ⟨_, .last hplays hverdict⟩
  · next hopen =>
      rw [Verdict.of, if_neg hopen] at hverdict
      cases retries with
      | zero =>
          obtain ⟨rfl, rfl⟩ := ends_pure_iff.mp h
          rw [List.append_nil]
          exact ⟨_, .exhausted hplays hverdict⟩
      | succ left =>
          dsimp only at h
          split at h
          · obtain ⟨pause, later, span, rfl, hpause, hlater⟩ := ends_bind_iff.mp h
            obtain ⟨rounds, hcourse⟩ := hfewer left rfl _ _ _ hlater
            exact ⟨_, .again hplays hverdict (asks_sleep _ _ _ hpause) hcourse⟩
          · obtain ⟨rounds, hcourse⟩ := hfewer left rfl _ _ _ h
            exact ⟨_, @Course.again _ _ front [] back _ _ _ _ hplays hverdict
              (fun _ hmem => absurd hmem List.not_mem_nil) hcourse⟩

/-- One round, and whatever follows it. -/
theorem hasCourse_of_fewer (hfewer : ∀ left, retries = left + 1 → HasCourse producer left) :
    HasCourse producer retries := by
  intro tracker history item h
  rw [Producer.rounds_eq] at h
  obtain ⟨cancelled, rest, rfl, hrest⟩ := ends_query_bind_iff.mp h
  cases cancelled with
  | true =>
      obtain ⟨rfl, rfl⟩ := ends_pure_iff.mp hrest
      exact ⟨[], .cancelled⟩
  | false =>
      obtain ⟨front, back, ⟨result, last⟩, rfl, hround, hback⟩ := ends_bind_iff.mp hrest
      obtain ⟨round, hplays, rfl, rfl, rfl⟩ := plays_of_round hround
      have hends : ∀ {given : Option Item}, round.verdict = .ends given →
          (pure given : Flow (Option Item)).Ends back item →
          ∃ rounds, Course producer retries round.before
            (⟨.isCancelled (.recordSet producer.set), false⟩ :: (front ++ back)) rounds item := by
        intro given hverdict hgiven
        obtain ⟨rfl, rfl⟩ := ends_pure_iff.mp hgiven
        rw [List.append_nil]
        exact ⟨_, .last hplays hverdict⟩
      rcases hresult : round.result with fault | roundEnd
      · simp only [hresult] at hback
        split at hback
        · next hpassing =>
            refine course_of_goOn hfewer hplays ?_ hback
            rw [Played.verdict, hresult]
            exact if_pos hpassing
        · next hfatal =>
            refine hends ?_ hback
            rw [Played.verdict, hresult]
            exact if_neg hfatal
      · simp only [hresult] at hback
        cases roundEnd with
        | finished =>
            refine course_of_goOn hfewer hplays ?_ hback
            rw [Played.verdict, hresult]
        | limitReached =>
            refine hends ?_ hback
            rw [Played.verdict, hresult]
        | abandoned =>
            refine hends ?_ hback
            rw [Played.verdict, hresult]

/-- The induction is on the retries that are left. -/
theorem rounds_course (retries : Nat) : HasCourse producer retries := by
  induction retries with
  | zero => exact hasCourse_of_fewer fun left hleft => absurd hleft (Nat.succ_ne_zero left).symm
  | succ retries ih =>
      refine hasCourse_of_fewer fun left hleft => ?_
      obtain rfl := Nat.succ.inj hleft
      exact ih

namespace Course

theorem length_le (h : Course producer retries tracker history rounds item) :
    rounds.length ≤ retries + 1 := by
  induction h with
  | cancelled => exact Nat.zero_le _
  | last => exact Nat.succ_le_succ (Nat.zero_le _)
  | exhausted => exact Nat.le_refl 1
  | again _ _ _ _ ih => exact Nat.succ_le_succ ih

/-- If there are no retries left and something is still to do, the set ends with that. -/
theorem exhausted_of_goesOn (h : Course producer retries tracker history rounds item)
    (hlength : rounds.length = retries + 1) (hlast : rounds.getLast? = some round)
    (hverdict : round.verdict = .goesOn next) :
    item = some (.failed (Producer.exhausted next)) := by
  induction h with
  | cancelled => cases hlast
  | last _ hends =>
      obtain rfl := Option.some.inj hlast
      cases hends.symm.trans hverdict
  | exhausted _ hgoesOn =>
      obtain rfl := Option.some.inj hlast
      obtain rfl := Verdict.goesOn.inj (hgoesOn.symm.trans hverdict)
      rfl
  | @again _ _ _ _ _ _ rounds _ _ _ _ _ ih =>
      have hmore : rounds ≠ [] := by
        rintro rfl
        cases hlength
      rw [List.getLast?_cons_of_ne_nil hmore] at hlast
      exact ih (Nat.succ.inj hlength) hlast

end Course

/-! ### What a round notes -/

/-- A tracker that has gone on from another by a number of rounds and of rows; its partitions and its limit
are the same. -/
structure Advanced (rounds rows : Nat) (tracker next : Tracker) : Prop where
  maxRecords_eq : next.maxRecords = tracker.maxRecords
  iteration_eq : next.iteration = tracker.iteration + rounds
  delivered_eq : next.delivered = tracker.delivered + rows
  ids_eq : next.statuses.map (·.id) = tracker.statuses.map (·.id)

theorem Advanced.trans {middle : Tracker} {rounds rows later more : Nat}
    (h : Advanced rounds rows tracker middle) (hlater : Advanced later more middle next) :
    Advanced (rounds + later) (rows + more) tracker next where
  maxRecords_eq := hlater.maxRecords_eq.trans h.maxRecords_eq
  iteration_eq := by rw [hlater.iteration_eq, h.iteration_eq, Nat.add_assoc]
  delivered_eq := by rw [hlater.delivered_eq, h.delivered_eq, Nat.add_assoc]
  ids_eq := hlater.ids_eq.trans h.ids_eq

theorem advanced_refl (tracker : Tracker) : Advanced 0 0 tracker tracker :=
  ⟨rfl, rfl, rfl, rfl⟩

theorem advanced_onRemaining {change : Partition.Status → Partition.Status}
    (hid : ∀ status, (change status).id = status.id) (tracker : Tracker) :
    Advanced 0 0 tracker (tracker.onRemaining change) where
  maxRecords_eq := rfl
  iteration_eq := rfl
  delivered_eq := rfl
  ids_eq := by
    rw [Tracker.statuses_onRemaining, List.map_map]
    exact congrArg (List.map · tracker.statuses) (funext (Tracker.id_changeOpen hid))

theorem advanced_startRound (tracker : Tracker) : Advanced 1 0 tracker tracker.startRound where
  maxRecords_eq := rfl
  iteration_eq := rfl
  delivered_eq := rfl
  ids_eq := by
    rw [Tracker.startRound, Tracker.statuses_onRemaining, List.map_map]
    exact congrArg (List.map · tracker.statuses) (funext (Tracker.id_changeOpen fun _ => rfl))

theorem advanced_note (tracker : Tracker) (row : RoundRow) :
    Advanced 0 (dataRows [row]).length tracker (Round.note tracker row) := by
  cases row with
  | data key record => exact ⟨rfl, rfl, rfl, tracker.ids_deliver key.digest⟩
  | partitionDone id code =>
      rw [Round.note]
      refine ⟨?_, ?_, ?_, tracker.ids_report id code⟩ <;>
        · rw [Tracker.report]
          split <;> rfl

theorem advanced_foldl_note (rows : List RoundRow) (tracker : Tracker) :
    Advanced 0 (dataRows rows).length tracker (rows.foldl Round.note tracker) := by
  induction rows generalizing tracker with
  | nil => exact advanced_refl tracker
  | cons row rows ih =>
      have hboth := (advanced_note tracker row).trans (ih (Round.note tracker row))
      rwa [← List.length_append, ← dataRows_append] at hboth

/-- A round has put the data of these rows on the queue and noted the rows, the first of its answer. Records
are left to be asked for, unless the limit has ended the round. -/
structure Played.Noted (round : Played) (rows : List RoundRow) : Prop where
  rows_eq : round.rows = (dataRows rows).map DataRow.toQueue
  after_eq : round.after = rows.foldl Round.note round.before.startRound
  refused : ∀ fault, round.opened = .error fault → rows = []
  begins : ∀ stream, round.opened = .ok stream →
    rows <+: (Row.harvest readRow (payload stream.arrivals)).rows
  left : round.result ≠ .ok .limitReached → round.after.limitReached = false
  full : round.result = .ok .limitReached → Round.Full round.after

theorem Played.Noted.advanced {rows : List RoundRow} (h : round.Noted rows) :
    Advanced 1 round.rows.length round.before round.after := by
  have hnoted := (advanced_startRound round.before).trans (advanced_foldl_note rows _)
  rwa [← h.after_eq, Nat.zero_add, ← List.length_map DataRow.toQueue, ← h.rows_eq] at hnoted

/-- While somebody reads the queue, a round notes what it puts there. -/
theorem Plays.noted (hattended : Attended producer.set history)
    (hopen : round.before.limitReached = false) (h : Plays producer history round) :
    round.result ≠ .ok .abandoned ∧ ∃ rows, round.Noted rows := by
  cases h with
  | refused hrefused => exact ⟨nofun, [], rfl, rfl, fun _ _ => rfl, nofun, fun _ => hopen, nofun⟩
  | @answered opening reading before stream result final hopening hrun =>
      have hread := (attended_append_iff.mp hattended).2
      have hstart : before.startRound.limitReached = false := hopen
      have hbegins : ∀ {rows : List RoundRow},
          rows <+: (Row.harvest readRow (payload stream.arrivals)).rows →
          ∀ given, (Except.ok stream : Except Fault FrameStream) = .ok given →
            rows <+: (Row.harvest readRow (payload given.arrivals)).rows := by
        rintro rows hrows _ ⟨⟩
        exact hrows
      generalize hlast : final.tracker = last
      have hspec := Round.run_spec hstart hrun
      rw [hlast] at hspec
      cases hspec with
      | abandoned hmem => exact absurd hmem (hread _)
      | limited hrows hqueued hfull =>
          exact ⟨nofun, _, hqueued, rfl, nofun, hbegins hrows, fun hnot => absurd rfl hnot, fun _ => hfull⟩
      | finished hqueued _ hleft =>
          exact ⟨nofun, _, hqueued, rfl, nofun, hbegins List.prefix_rfl, fun _ => hleft, nofun⟩
      | broken hrows hqueued hleft =>
          exact ⟨nofun, _, hqueued, rfl, nofun, hbegins hrows, fun _ => hleft, nofun⟩

/-! ### How a set ends -/

def Item.IsTerminal : Item → Prop
  | .row .. => False
  | .finished _ | .failed _ => True

/-- What a set that ends with an item has come to, with a number of rows on the queue since the progress was
as it is said to be: the limit holds, and the set is finished only if all its partitions are done or the
limit is reached. -/
structure Concludes (tracker : Tracker) (rows : Nat) (last : Item) : Prop where
  terminal : last.IsTerminal
  limit : 0 < tracker.maxRecords → tracker.delivered + rows ≤ tracker.maxRecords
  finished : ∀ filter, last = .finished filter → ∃ statuses, filter.statuses = some statuses ∧
    statuses.map (·.id) = tracker.statuses.map (·.id) ∧
    ((∀ status ∈ statuses, status.done = true) ∨
      0 < tracker.maxRecords ∧ tracker.delivered + rows = tracker.maxRecords)

theorem delivered_le_of_open (hopen : tracker.limitReached = false) (hlimit : 0 < tracker.maxRecords) :
    tracker.delivered ≤ tracker.maxRecords := by
  have hnot := of_decide_eq_false hopen
  omega

theorem Concludes.earlier {rounds rows more : Nat} {last : Item} (h : Concludes next more last)
    (hadvanced : Advanced rounds rows tracker next) : Concludes tracker (rows + more) last := by
  have hdelivered : next.delivered + more = tracker.delivered + (rows + more) := by
    rw [hadvanced.delivered_eq, Nat.add_assoc]
  obtain ⟨hterminal, hlimit, hfinished⟩ := h
  rw [hadvanced.maxRecords_eq, hdelivered] at hlimit hfinished
  rw [hadvanced.ids_eq] at hfinished
  exact ⟨hterminal, hlimit, hfinished⟩

theorem concludes_failed (hopen : tracker.limitReached = false) (fault : Fault) :
    Concludes tracker 0 (.failed fault) :=
  ⟨trivial, delivered_le_of_open hopen, nofun⟩

theorem concludes_full (hfull : Round.Full tracker) : Concludes tracker 0 (.finished tracker.resumeFilter) := by
  refine ⟨trivial, fun _ => Nat.le_of_eq hfull.2, ?_⟩
  rintro _ ⟨⟩
  exact ⟨tracker.statuses, rfl, rfl, .inr hfull⟩

theorem concludes_complete (hopen : tracker.limitReached = false) (hcomplete : tracker.isComplete = true) :
    Concludes tracker 0 (.finished tracker.resumeFilter) := by
  refine ⟨trivial, delivered_le_of_open hopen, ?_⟩
  rw [Tracker.isComplete, hopen, Bool.or_false, List.all_eq_true] at hcomplete
  rintro _ ⟨⟩
  exact ⟨tracker.statuses, rfl, rfl, .inl hcomplete⟩

/-- What a round leads to, as far as the progress goes. -/
structure Leads (tracker : Tracker) (rows : Nat) (verdict : Verdict) : Prop where
  ends : ∀ item, verdict = .ends item → ∃ last, item = some last ∧ Concludes tracker rows last
  goesOn : ∀ next, verdict = .goesOn next →
    Advanced 1 rows tracker next ∧ next.limitReached = false

theorem leads_ends {rows : Nat} {last : Item} (h : Concludes tracker rows last) :
    Leads tracker rows (.ends (some last)) := by
  refine ⟨?_, nofun⟩
  rintro _ ⟨⟩
  exact ⟨last, rfl, h⟩

theorem leads_of {rows : Nat} (hadvanced : Advanced 1 rows tracker next)
    (hopen : next.limitReached = false) : Leads tracker rows (.of next) := by
  rw [Verdict.of]
  split
  · next hcomplete => exact leads_ends ((concludes_complete hopen hcomplete).earlier hadvanced)
  · refine ⟨nofun, ?_⟩
    rintro _ ⟨⟩
    exact ⟨hadvanced, hopen⟩

theorem Played.Noted.leads {rows : List RoundRow} (h : round.Noted rows)
    (hread : round.result ≠ .ok .abandoned) :
    Leads round.before round.rows.length round.verdict := by
  have hchanged : ∀ {change : Partition.Status → Partition.Status},
      (∀ status, (change status).id = status.id) → round.result ≠ .ok .limitReached →
      Leads round.before round.rows.length (.of (round.after.onRemaining change)) :=
    fun hid hnot => leads_of (h.advanced.trans (advanced_onRemaining hid _)) (h.left hnot)
  rw [Played.verdict]
  rcases hresult : round.result with fault | roundEnd
  · have hnot : round.result ≠ .ok .limitReached := by
      rw [hresult]
      nofun
    dsimp only
    split
    · exact hchanged (fun _ => rfl) hnot
    · exact leads_ends ((concludes_failed (h.left hnot) _).earlier h.advanced)
  · cases roundEnd with
    | finished =>
        refine hchanged (fun _ => rfl) ?_
        rw [hresult]
        nofun
    | limitReached => exact leads_ends ((concludes_full (h.full hresult)).earlier h.advanced)
    | abandoned => exact absurd hresult hread

namespace Course

/-- While somebody reads the queue, a set ends with an item, and the limit holds over all its rounds. The
progress before each round carries the induction. -/
theorem concluded (hattended : Attended producer.set history) (hopen : tracker.limitReached = false)
    (h : Course producer retries tracker history rounds item) :
    ∃ last, item = some last ∧ Concludes tracker (rounds.flatMap Played.rows).length last := by
  induction h with
  | cancelled => exact ⟨_, rfl, concludes_failed hopen _⟩
  | last hplays hverdict =>
      obtain ⟨hread, rows, hnoted⟩ := hplays.noted hattended.tail hopen
      rw [List.flatMap_singleton]
      exact (hnoted.leads hread).ends _ hverdict
  | exhausted hplays hverdict =>
      obtain ⟨hread, rows, hnoted⟩ := hplays.noted hattended.tail hopen
      obtain ⟨hadvanced, hleft⟩ := (hnoted.leads hread).goesOn _ hverdict
      rw [List.flatMap_singleton]
      exact ⟨_, rfl, (concludes_failed hleft _).earlier hadvanced⟩
  | again hplays hverdict _ _ ih =>
      obtain ⟨hfront, hback⟩ := attended_append_iff.mp hattended.tail
      obtain ⟨hread, rows, hnoted⟩ := hplays.noted hfront hopen
      obtain ⟨hadvanced, hleft⟩ := (hnoted.leads hread).goesOn _ hverdict
      obtain ⟨last, hlast, hconcludes⟩ := ih (attended_append_iff.mp hback).2 hleft
      rw [List.flatMap_cons, List.length_append]
      exact ⟨last, hlast, hconcludes.earlier hadvanced⟩

/-- Rounds are numbered in their order. -/
theorem iterations (hattended : Attended producer.set history) (hopen : tracker.limitReached = false)
    (h : Course producer retries tracker history rounds item) :
    rounds.map Played.iteration = List.range' (tracker.iteration + 1) rounds.length := by
  induction h with
  | cancelled => rfl
  | last => rfl
  | exhausted => rfl
  | again hplays hverdict _ _ ih =>
      obtain ⟨hfront, hback⟩ := attended_append_iff.mp hattended.tail
      obtain ⟨hread, rows, hnoted⟩ := hplays.noted hfront hopen
      obtain ⟨hadvanced, hleft⟩ := (hnoted.leads hread).goesOn _ hverdict
      have hlater := ih (attended_append_iff.mp hback).2 hleft
      rw [hadvanced.iteration_eq] at hlater
      rw [List.map_cons, hlater]
      rfl

/-- Every round notes what it puts on the queue. -/
theorem noted (hattended : Attended producer.set history) (hopen : tracker.limitReached = false)
    (h : Course producer retries tracker history rounds item) :
    ∀ round ∈ rounds, ∃ rows, round.Noted rows := by
  induction h with
  | cancelled => exact fun _ hmem => absurd hmem List.not_mem_nil
  | last hplays =>
      rw [List.forall_mem_singleton]
      exact (hplays.noted hattended.tail hopen).2
  | exhausted hplays =>
      rw [List.forall_mem_singleton]
      exact (hplays.noted hattended.tail hopen).2
  | again hplays hverdict _ _ ih =>
      obtain ⟨hfront, hback⟩ := attended_append_iff.mp hattended.tail
      obtain ⟨hread, rows, hnoted⟩ := hplays.noted hfront hopen
      have hleft := ((hnoted.leads hread).goesOn _ hverdict).2
      rw [List.forall_mem_cons]
      exact ⟨⟨rows, hnoted⟩, ih (attended_append_iff.mp hback).2 hleft⟩

end Course

/-! ### What is put on the queue -/

/-- A producer that asks for its rounds without putting anything on a queue. -/
def Producer.IsQuiet (producer : Producer) : Prop :=
  ∀ filter iteration, (producer.openRound filter iteration).Asks Ask.KeepsQueues

/-- A round puts its rows on the queue, and nothing else. -/
theorem Plays.itemsPut_eq (hquiet : producer.IsQuiet) (h : Plays producer history round) :
    itemsPut producer.set history = round.rows.map Item.ofRow := by
  cases h with
  | refused hrefused =>
      have hopening := hquiet _ _ _ _ hrefused
      rw [itemsPut_of_offersRows fun event hmem => (hopening event hmem).offersRows,
        queued_eq_nil hopening]
  | answered hopening hrun =>
      have hasked := hquiet _ _ _ _ hopening
      have hreading := Round.offersRows_run _ _ _ hrun
      rw [itemsPut_append, itemsPut_of_offersRows fun event hmem => (hasked event hmem).offersRows,
        queued_eq_nil hasked, itemsPut_of_offersRows hreading]
      rfl

theorem itemsPut_cancel (set number : Nat) (cancelled : Bool) (history : History) :
    itemsPut set (⟨.isCancelled (.recordSet number), cancelled⟩ :: history) = itemsPut set history :=
  rfl

/-- The rounds of a set put their rows on the queue, in their order. -/
theorem Course.itemsPut_eq (hquiet : producer.IsQuiet)
    (h : Course producer retries tracker history rounds item) :
    itemsPut producer.set history = (rounds.flatMap Played.rows).map Item.ofRow := by
  induction h with
  | cancelled => rfl
  | last hplays => rw [itemsPut_cancel, hplays.itemsPut_eq hquiet, List.flatMap_singleton]
  | exhausted hplays => rw [itemsPut_cancel, hplays.itemsPut_eq hquiet, List.flatMap_singleton]
  | @again _ _ pause _ _ _ _ _ hplays _ hpause _ ih =>
      have hsilent : itemsPut producer.set pause = [] := by
        rw [itemsPut_of_offersRows fun event hmem => (hpause event hmem).keepsQueues.offersRows,
          queued_of_local hpause]
        rfl
      rw [itemsPut_cancel, itemsPut_append, itemsPut_append, hplays.itemsPut_eq hquiet, hsilent, ih,
        List.flatMap_cons, List.map_append]
      rfl

/-! ### Whole sets -/

/-- How a set is filled that somebody reads. -/
structure Filled (producer : Producer) (tracker : Tracker) (history : History) (rounds : List Played)
    (last : Item) : Prop where
  /-- These are the rounds that have been asked for, and the last item comes after all of them. -/
  course : ∃ front, history = front ++ [⟨.offer producer.set last, true⟩] ∧
    Course producer producer.maxRetries tracker front rounds (some last)
  length_le : rounds.length ≤ producer.maxRetries + 1
  iterations : rounds.map Played.iteration = List.range' 1 rounds.length
  items : itemsPut producer.set history = (rounds.flatMap Played.rows).map Item.ofRow ++ [last]
  terminal : last.IsTerminal
  /-- A round without an answer brings no rows, and of the rows that a round has read of its answer those
  with a mark are not put on the queue. -/
  rows : ∀ round ∈ rounds, (∀ fault, round.opened = .error fault → round.rows = []) ∧
    ∀ stream, round.opened = .ok stream → ∃ read,
      read <+: (Row.harvest readHeaded (payload stream.arrivals)).rows ∧
        round.rows = (unmarked read).map DataRow.toQueue
  limit : 0 < tracker.maxRecords → (rounds.flatMap Played.rows).length ≤ tracker.maxRecords
  /-- The set is finished only if all partitions are done, or just as many records have come as were asked
  for. -/
  finished : ∀ filter, last = .finished filter → ∃ statuses, filter.statuses = some statuses ∧
    statuses.map (·.id) = tracker.statuses.map (·.id) ∧
    ((∀ status ∈ statuses, status.done = true) ∨
      0 < tracker.maxRecords ∧ (rounds.flatMap Played.rows).length = tracker.maxRecords)
  /-- If something is still to do after the last of all rounds, the set fails with that. -/
  exhausted : ∀ round next, rounds.length = producer.maxRetries + 1 → rounds.getLast? = some round →
    round.verdict = .goesOn next → last = .failed (Producer.exhausted next) ∧
      (Producer.exhausted next).code = .maxRetriesExceeded

theorem limitReached_of_fresh (hdelivered : tracker.delivered = 0) : tracker.limitReached = false := by
  rw [Tracker.limitReached, hdelivered, decide_eq_false_iff_not]
  omega

theorem Played.Noted.unmarked {rows : List RoundRow} (h : round.Noted rows) {stream : FrameStream}
    (hopened : round.opened = .ok stream) :
    ∃ read, read <+: (Row.harvest readHeaded (payload stream.arrivals)).rows ∧
      round.rows = (unmarked read).map DataRow.toQueue := by
  obtain ⟨read, hread, -, hdata⟩ := dataRows_of_prefix (h.begins stream hopened)
  exact ⟨read, hread, by rw [h.rows_eq, hdata]⟩

theorem Course.filled {front : History} {last : Item} (hquiet : producer.IsQuiet)
    (hattended : Attended producer.set front) (hiteration : tracker.iteration = 0)
    (hdelivered : tracker.delivered = 0)
    (h : Course producer producer.maxRetries tracker front rounds (some last)) :
    Filled producer tracker (front ++ [⟨.offer producer.set last, true⟩]) rounds last := by
  have hopen := limitReached_of_fresh hdelivered
  obtain ⟨_, hlast, hconcludes⟩ := h.concluded hattended hopen
  obtain rfl := Option.some.inj hlast
  obtain ⟨hterminal, hlimit, hfinished⟩ := hconcludes
  rw [hdelivered, Nat.zero_add] at hlimit hfinished
  refine ⟨⟨front, rfl, h⟩, h.length_le, ?_, ?_, hterminal, ?_, hlimit, hfinished, ?_⟩
  · rw [h.iterations hattended hopen, hiteration]
  · rw [itemsPut_append, h.itemsPut_eq hquiet]
    simp [itemsPut, Event.put?]
  · intro round hmem
    obtain ⟨rows, hnoted⟩ := h.noted hattended hopen round hmem
    refine ⟨fun fault hrefused => ?_, fun stream => hnoted.unmarked⟩
    rw [hnoted.rows_eq, hnoted.refused fault hrefused]
    rfl
  · intro round next hlength hround hverdict
    have hitem := h.exhausted_of_goesOn hlength hround hverdict
    exact ⟨Option.some.inj hitem, rfl⟩

/-- Whatever the gateway answers to the rounds of a set, and whenever the set is cancelled: as long as
somebody reads the queue, the rows of at most so many rounds are put there, and after them one item with
which the set ends. -/
theorem set_ends_once (producer : Producer) (statuses : List Partition.Status) (maxRecords : Nat)
    (surroundings : Surroundings) (hquiet : producer.IsQuiet)
    (hread : ∀ past item, surroundings past (.offer producer.set item) = true) :
    let tracker : Tracker := { statuses, maxRecords }
    ∃ rounds last, Filled producer tracker ((producer.run tracker).runIn surroundings []).2 rounds
      last := by
  intro tracker
  have hanswers : ∀ past question item,
      (⟨question, surroundings past question⟩ : Event) ≠ ⟨.offer producer.set item, false⟩ := by
    rintro past question item hevent
    obtain ⟨rfl, hanswer⟩ := Event.mk.inj hevent
    cases (hread past item).symm.trans (eq_of_heq hanswer)
  obtain ⟨history, hhistory, hall, hends⟩ :=
    ends_runIn_where (P := fun event => ∀ item, event ≠ ⟨.offer producer.set item, false⟩)
      surroundings hanswers (producer.run tracker) []
  rw [hhistory, List.nil_append]
  have hattended : Attended producer.set history := fun item hmem => hall _ hmem item rfl
  obtain ⟨front, back, item, rfl, hrounds, hback⟩ := ends_bind_iff.mp hends
  have hfront := (attended_append_iff.mp hattended).1
  obtain ⟨rounds, hcourse⟩ := rounds_course producer.maxRetries tracker front item hrounds
  obtain ⟨last, rfl, -⟩ := hcourse.concluded hfront (limitReached_of_fresh rfl)
  obtain ⟨offering, silent, isRead, rfl, hoffer, hsilent⟩ := ends_bind_iff.mp hback
  obtain rfl := ends_query_iff.mp hoffer
  obtain ⟨rfl, -⟩ := ends_pure_iff.mp hsilent
  cases isRead with
  | false => exact absurd (List.mem_singleton.mpr rfl) ((attended_append_iff.mp hattended).2 last)
  | true => exact ⟨rounds, last, hcourse.filled hquiet hfront rfl rfl⟩

/-- A set that is to bring three records has two of them from its first round, and its second round ends
with the third. -/
theorem small_set_full :
    let tracker : Tracker := { statuses := Tracker.freshStatuses 0 2 none, maxRecords := 3 }
    let history := ((smallProducer.run tracker).runIn reading []).2
    ∃ rounds last, Filled smallProducer tracker history rounds last ∧
      (rounds.flatMap Played.rows).length = 3 ∧ Item.isFinished (some last) = true := by
  intro tracker history
  obtain ⟨rounds, last, hfilled⟩ := set_ends_once smallProducer (Tracker.freshStatuses 0 2 none) 3
    reading (fun _ _ => asks_pure _) (fun _ _ => rfl)
  have hlength : (itemsPut smallProducer.set history).length = 4 ∧
      Item.isFinished (itemsPut smallProducer.set history).getLast? = true := by
    decide +kernel
  rw [hfilled.items, List.length_append, List.length_map, List.getLast?_concat] at hlength
  exact ⟨rounds, last, hfilled, Nat.succ.inj hlength.1, hlength.2⟩

end RecordSet
end RecordGateway
