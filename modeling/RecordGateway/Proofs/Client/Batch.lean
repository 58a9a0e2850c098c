import RecordGateway.Client.Batch
import RecordGateway.Proofs.Batch.Reassembly
import RecordGateway.Proofs.Client.Opening

/-!
What a batch leaves in its slots. Whatever the slots held before, and however the call comes to its
end, a slot holds the outcome of the first row that has arrived for it (`arrivedRows`). The slots
without a row are what the end of the call makes a difference to: after a failure each is in doubt
exactly if it writes (`batch_slots_of_error`), and after an answer that came to its end none is, but the
batch then does not count as a success (`batch_slots_of_ok`).
-/

namespace RecordGateway.Client

open Batch RecordGateway.Flow FrameReader Row

/-- The rows of a batch of `count` slots that have arrived whole, up to the first that names none of
them. -/
def arrivedRows (count : Nat) (history : History) : List AnswerRow :=
  (harvest Tally.readRow (broughtBytes history)).rows.takeWhile fun row =>
    row.1.index.toNat < count

/-- The first row that has arrived for a slot. -/
def arrivedFor (count : Nat) (history : History) (index : Nat) : Option AnswerRow :=
  (arrivedRows count history).find? fun row => row.1.index.toNat == index

variable {client : Client} {policy : Policy} {slots : List Slot} {history : History} {fault : Fault}
  {result : List Slot}

theorem target?_identity (count : Nat) (row : AnswerRow) :
    (Plan.identity count).target? count row =
      if row.1.index.toNat < count then some row.1.index.toNat else none := by
  rw [Plan.target?, Plan.identity]
  by_cases hinside : row.1.index.toNat < count
  · simp [hinside]
  · simp [hinside]

/-- With all slots listed in order, an index names the slot at that place. -/
theorem firstRowWins_identity (slots : List Slot) (history : History) :
    firstRowWins (.identity slots.length) slots (addressed (.identity slots.length) slots.length
        (harvest Tally.readRow (broughtBytes history)).rows) =
      slots.mapIdx fun index slot => slot.after (arrivedFor slots.length history index) := by
  have hrows : addressed (.identity slots.length) slots.length
      (harvest Tally.readRow (broughtBytes history)).rows = arrivedRows slots.length history := by
    rw [addressed, arrivedRows]
    congr 1
    funext row
    rw [target?_identity]
    by_cases hinside : row.1.index.toNat < slots.length
    · simp [hinside]
    · simp [hinside]
  rw [hrows, firstRowWins]
  refine List.ext_getElem? fun index => ?_
  rw [List.getElem?_mapIdx, List.getElem?_mapIdx]
  by_cases hindex : index < slots.length
  · have hfind : (arrivedRows slots.length history).find? (fun row =>
        (Plan.identity slots.length).target? slots.length row == some index) =
        arrivedFor slots.length history index := by
      rw [arrivedFor]
      congr 1
      funext row
      rw [target?_identity]
      by_cases hrow : row.1.index.toNat = index
      · simp [hrow, hindex]
      · by_cases hinside : row.1.index.toNat < slots.length
        · simp [hinside]
        · simp [hinside, hrow]
    rw [hfind]
  · rw [List.getElem?_eq_none (Nat.not_lt.mp hindex)]
    rfl

theorem openBatch_spec {outcome : Except Fault FrameReader}
    (h : (client.openBatch policy slots).run.Ends history outcome) :
    (∃ fault, outcome = .error fault ∧ broughtBytes history = []) ∨
      ∃ stream limits reporter, outcome = .ok { stream, limits, reporter } ∧
        ∀ more, broughtBytes (history ++ more) =
          payload (stream.arrivals.take (arrivalCount more)) := by
  unfold openBatch at h
  rcases ends_run_bind_iff.mp h with
    ⟨fault, hframe, rfl⟩ | ⟨front, timing, bytes, rfl, hframe, htiming⟩
  · obtain ⟨rfl, -⟩ := ends_run_lift_iff.mp hframe
    exact .inl ⟨fault, rfl, rfl⟩
  obtain ⟨rfl, -⟩ := ends_run_lift_iff.mp hframe
  obtain ⟨now, numbering, rfl, hnumbering⟩ := ends_run_query_bind_iff.mp htiming
  obtain ⟨id, sending, rfl, hsending⟩ := ends_run_query_bind_iff.mp hnumbering
  rcases ends_run_bind_iff.mp hsending with
    ⟨fault, hstream, rfl⟩ | ⟨opening, rest, stream, rfl, hstream, hrest⟩
  · rcases stream_spec hstream with ⟨_, _, hnone⟩ | ⟨_, hok, _⟩
    · exact .inl ⟨fault, rfl, hnone⟩
    · cases hok
  · obtain ⟨rfl, rfl⟩ := ends_pure_iff.mp hrest
    rcases stream_spec hstream with ⟨_, hfault, _⟩ | ⟨_, hok, hbrought⟩
    · cases hfault
    · obtain rfl := Except.ok.inj hok
      refine .inr ⟨stream, _, _, rfl, fun more => ?_⟩
      rw [List.append_nil]
      exact hbrought more

/-- What is exchanged leaves the slots that the arrived rows make, whether it fails or not. -/
theorem exchangeBatch_spec {outcome : Except Fault Unit} {tally : Tally}
    (hblank : ∀ slot ∈ slots, slot.Blank)
    (h : (client.exchangeBatch policy slots).Ends history (outcome, tally)) :
    tally.slots = slots.mapIdx (fun index slot =>
        slot.after (arrivedFor slots.length history index)) ∧
      (outcome = .ok () → tally.slots.any Slot.isPending → tally.hasRowError = true) := by
  unfold exchangeBatch at h
  obtain ⟨opening, rest, opened, rfl, hopening, hrest⟩ := ends_bind_iff.mp h
  rcases openBatch_spec hopening with ⟨fault, rfl, hnone⟩ | ⟨stream, limits, reporter, rfl, hbrought⟩
  · obtain ⟨rfl, hresult⟩ := ends_pure_iff.mp hrest
    obtain ⟨rfl, rfl⟩ := Prod.mk.inj hresult
    refine ⟨?_, nofun⟩
    rw [List.append_nil, ← firstRowWins_identity, hnone]
    exact firstRowWins_nil.symm
  · obtain ⟨reading, last, ⟨given, state⟩, rfl, hreading, hlast⟩ := ends_bind_iff.mp hrest
    obtain ⟨rfl, hresult⟩ := ends_pure_iff.mp hlast
    obtain ⟨rfl, rfl⟩ := Prod.mk.inj hresult
    obtain ⟨hslots, hok, _⟩ := Reassembly.run_spec hreading
    have hplaced := Tally.placeAll_blank (.identity slots.length) hblank
      (harvest Tally.readRow (payload (stream.arrivals.take (arrivalCount reading)))).rows
    constructor
    · rw [hslots, Reassembly.answeredBy, hplaced.1, ← firstRowWins_identity, List.append_nil, hbrought]
    · intro hdone hpending
      obtain ⟨_, _, hfinal⟩ := hok hdone
      rw [hfinal] at hpending ⊢
      exact Bool.or_eq_true_iff.mpr (.inr hpending)

/-- A batch resets its slots, lets the arrived rows answer them, and after a failure sweeps them. -/
theorem batch_spec {outcome : Except Fault Bool}
    (h : (client.batch policy slots).Ends history (outcome, result)) :
    let answered := slots.mapIdx fun index slot =>
      slot.reset.after (arrivedFor slots.length history index)
    (∃ verdict, outcome = .ok verdict ∧ result = answered ∧
        (result.any Slot.isPending → verdict = false)) ∨
      ∃ fault, outcome = .error fault ∧ result = answered.map Slot.sweep := by
  intro answered
  have hanswered : answered = (slots.map Slot.reset).mapIdx fun index slot =>
      slot.after (arrivedFor (slots.map Slot.reset).length history index) := by
    refine List.ext_getElem? fun index => ?_
    rw [List.getElem?_mapIdx, List.getElem?_mapIdx, List.getElem?_map, List.length_map,
      Option.map_map]
    rfl
  have hblank : ∀ slot ∈ slots.map Slot.reset, slot.Blank := by
    intro slot hmem
    obtain ⟨original, -, rfl⟩ := List.mem_map.mp hmem
    exact original.blank_reset
  unfold batch at h
  dsimp only at h
  split at h
  · next hempty =>
      obtain ⟨rfl, hresult⟩ := ends_pure_iff.mp h
      obtain ⟨rfl, rfl⟩ := Prod.mk.inj hresult
      obtain rfl : slots = [] := by simpa using hempty
      exact .inl ⟨true, rfl, rfl, nofun⟩
  · obtain ⟨exchanging, rest, ⟨given, tally⟩, rfl, hexchange, hrest⟩ := ends_bind_iff.mp h
    obtain ⟨hslots, hpending⟩ := exchangeBatch_spec hblank hexchange
    cases given with
    | ok done =>
        obtain ⟨rfl, hresult⟩ := ends_pure_iff.mp hrest
        obtain ⟨rfl, rfl⟩ := Prod.mk.inj hresult
        rw [List.append_nil] at hanswered
        refine .inl ⟨_, rfl, hslots.trans hanswered.symm, fun hany => ?_⟩
        rw [hpending rfl hany]
        rfl
    | error fault =>
        obtain ⟨rfl, hresult⟩ := ends_pure_iff.mp hrest
        obtain ⟨rfl, rfl⟩ := Prod.mk.inj hresult
        rw [List.append_nil] at hanswered
        exact .inr ⟨fault, rfl, by rw [hslots, hanswered]⟩

theorem sweep_after (slot : Slot) (row : Option AnswerRow) :
    (slot.reset.after row).sweep =
      match row with
      | some row => slot.reset.settle (Outcome.ofRow slot.hasWrite row)
      | none => { slot.reset with inDoubt := slot.hasWrite } := by
  rw [Slot.sweep, Slot.isPending_after slot.blank_reset]
  cases row <;> rfl

/-- A failed batch keeps the outcomes that have arrived, each slot the first of its own, and leaves
every other slot without an outcome and in doubt exactly if it writes. -/
theorem batch_slots_of_error (h : (client.batch policy slots).Ends history (.error fault, result)) :
    result = slots.mapIdx (fun index slot =>
        match arrivedFor slots.length history index with
        | some row => slot.reset.settle (Outcome.ofRow slot.hasWrite row)
        | none => { slot.reset with inDoubt := slot.hasWrite }) ∧
      ∀ slot ∈ result, slot.inDoubt = true → slot.hasWrite = true := by
  rcases batch_spec h with ⟨_, hok, _⟩ | ⟨_, _, rfl⟩
  · cases hok
  · constructor
    · refine List.ext_getElem? fun index => ?_
      rw [List.getElem?_map, List.getElem?_mapIdx, List.getElem?_mapIdx, Option.map_map]
      simp only [Function.comp_def, sweep_after]
    · intro slot hmem hdoubt
      obtain ⟨answered, hanswered, rfl⟩ := List.mem_map.mp hmem
      obtain ⟨index, hindex, rfl⟩ := List.mem_mapIdx.mp hanswered
      rw [sweep_after] at hdoubt ⊢
      cases harrived : arrivedFor slots.length history index with
      | none =>
          rw [harrived] at hdoubt
          exact hdoubt
      | some row =>
          rw [harrived] at hdoubt
          exact Outcome.hasWrite_of_inDoubt hdoubt

/-- A client without credentials, whose encoder writes nothing. -/
def bareClient : Client where
  framer := { command := fun _ => .ok [], batch := fun _ _ => .ok [], value := fun _ => .ok [] }
  config := { clientVersion := "" }

/-- Calm surroundings with a gateway that answers every request with the same frames. -/
def answering (arrivals : List Arrival) : Surroundings
  | _, .openStream _ => ⟨some 0, .ok { arrivals }⟩
  | _, question => calmAnswer question

def threeSlots : List Slot :=
  [Slot.write {} [], Slot.read {} none, Slot.delete {}]

/-- A stream that breaks off after the row of the second slot. -/
def brokenFrames : List Arrival :=
  [⟨some 0, .ok { payload := Group.plain (Row.bareRow 1 0 7 0), hasNext := true }⟩,
    ⟨some 0, .error ⟨.unavailable, "", []⟩⟩]

theorem batch_of_broken_stream :
    ∃ fault result,
      ((bareClient.batch {} threeSlots).runIn (answering brokenFrames) []).1 =
        (.error fault, result) ∧
      result.map (fun slot => (slot.code, slot.inDoubt)) = [(-15, true), (0, false), (-15, true)] := by
  obtain ⟨history, hhistory, hends⟩ :=
    ends_runIn (answering brokenFrames) (bareClient.batch {} threeSlots) []
  rw [List.nil_append] at hhistory
  have hfails : ((bareClient.batch {} threeSlots).runIn (answering brokenFrames) []).1.1.isOk =
      false := by
    decide +kernel
  rcases hran : ((bareClient.batch {} threeSlots).runIn (answering brokenFrames) []).1 with
    ⟨fault | verdict, result⟩
  · rw [hran] at hends
    refine ⟨fault, result, rfl, ?_⟩
    rw [(batch_slots_of_error hends).1, ← hhistory]
    decide +kernel
  · rw [hran] at hfails
    cases hfails

/-- A batch whose answer came to its end leaves a slot without a row as it is, without an outcome and
not in doubt even if it writes; the slot then reports that nothing came, and the batch is no success. -/
theorem batch_slots_of_ok {verdict : Bool}
    (h : (client.batch policy slots).Ends history (.ok verdict, result)) :
    result = slots.mapIdx (fun index slot =>
        slot.reset.after (arrivedFor slots.length history index)) ∧
      ∀ slot ∈ result,
        (slot.isPending = true →
          slot.inDoubt = false ∧ slot.fault? = some (.ofCode .noResponse) ∧ verdict = false) ∧
        (slot.inDoubt = true → slot.hasWrite = true) := by
  rcases batch_spec h with ⟨given, hverdict, rfl, hpending⟩ | ⟨_, herror, _⟩
  · obtain rfl := Except.ok.inj hverdict
    refine ⟨rfl, fun slot hmem => ?_⟩
    have hany : slot.isPending = true → verdict = false := fun hslot =>
      hpending (List.any_eq_true.mpr ⟨slot, hmem, hslot⟩)
    obtain ⟨index, hindex, rfl⟩ := List.mem_mapIdx.mp hmem
    cases harrived : arrivedFor slots.length history index with
    | none =>
        rw [harrived] at hany
        exact ⟨fun _ => ⟨rfl, rfl, hany rfl⟩, nofun⟩
    | some row =>
        refine ⟨fun hslot => ?_, Outcome.hasWrite_of_inDoubt⟩
        rw [Slot.isPending_after (Slot.blank_reset _)] at hslot
        cases hslot
  · cases herror

/-- A stream that comes to its end after the row of the second slot. -/
def endedFrames : List Arrival :=
  [⟨some 0, .ok { payload := Group.plain (Row.bareRow 1 0 7 0) }⟩]

theorem batch_of_short_answer :
    ∃ verdict result,
      ((bareClient.batch {} threeSlots).runIn (answering endedFrames) []).1 = (.ok verdict, result) ∧
      verdict = false ∧
      result.map (fun slot => (slot.code, slot.inDoubt)) =
        [(-15, false), (0, false), (-15, false)] := by
  obtain ⟨history, hhistory, hends⟩ :=
    ends_runIn (answering endedFrames) (bareClient.batch {} threeSlots) []
  rw [List.nil_append] at hhistory
  have hsucceeds : ((bareClient.batch {} threeSlots).runIn (answering endedFrames) []).1.1.isOk =
      true := by
    decide +kernel
  rcases hran : ((bareClient.batch {} threeSlots).runIn (answering endedFrames) []).1 with
    ⟨fault | verdict, result⟩
  · rw [hran] at hsucceeds
    cases hsucceeds
  · rw [hran] at hends
    obtain ⟨hresult, hslots⟩ := batch_slots_of_ok hends
    have hcodes : result.map (fun slot => (slot.code, slot.inDoubt)) =
        [(-15, false), (0, false), (-15, false)] := by
      rw [hresult, ← hhistory]
      decide +kernel
    have hpending : result.any Slot.isPending = true := by
      rw [hresult, ← hhistory]
      decide +kernel
    obtain ⟨slot, hmem, hslot⟩ := List.any_eq_true.mp hpending
    exact ⟨verdict, result, rfl, ((hslots slot hmem).1 hslot).2.2, hcodes⟩

/-- A write without a row is not always in doubt: an answer that came to its end leaves it as it is. -/
theorem write_without_row_not_in_doubt :
    ¬ ∀ (client : Client) (policy : Policy) (slots : List Slot) (history : History) (verdict : Bool)
        (result : List Slot),
      (client.batch policy slots).Ends history (.ok verdict, result) →
      ∀ slot ∈ result, slot.hasWrite = true → slot.isPending = true → slot.inDoubt = true := by
  intro hall
  obtain ⟨history, -, hends⟩ :=
    ends_runIn (answering endedFrames) (bareClient.batch {} threeSlots) []
  have hrun : ((bareClient.batch {} threeSlots).runIn (answering endedFrames) []).1.1.isOk = true ∧
      ((bareClient.batch {} threeSlots).runIn (answering endedFrames) []).1.2.any
        (fun slot => slot.hasWrite && slot.isPending && !slot.inDoubt) = true := by
    decide +kernel
  rcases hran : ((bareClient.batch {} threeSlots).runIn (answering endedFrames) []).1 with
    ⟨fault | verdict, result⟩
  · rw [hran] at hrun
    cases hrun.1
  · rw [hran] at hends hrun
    obtain ⟨slot, hmem, hslot⟩ := List.any_eq_true.mp hrun.2
    simp only [Bool.and_eq_true, Bool.not_eq_true'] at hslot
    have hdoubt := hall _ _ _ _ _ _ hends slot hmem hslot.1.1 hslot.1.2
    rw [hslot.2] at hdoubt
    cases hdoubt

end RecordGateway.Client
