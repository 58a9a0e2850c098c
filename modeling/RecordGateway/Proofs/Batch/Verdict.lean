import RecordGateway.Proofs.Client.Batch
import RecordGateway.Proofs.Flow.Failures

/-!
The verdict on a batch. Placing a row counts it and notes whether it is an error, and later each slot says
of itself whether it has a fault. The two are kept by different functions; they agree after every row
(`Tally.Balanced`, `Tally.Balanced.place`), so they agree after every answer, whole or broken off
(`Reassembly.run_balanced`), and the verdict is what the slots say (`Tally.Balanced.hasRowError_finish`).
-/

namespace RecordGateway.Batch

open RecordGateway.Flow FrameReader Row

/-! ### One slot -/

/-- A slot holds a record only if its operation succeeded or its script says in it how it failed, and
it is in doubt only if it writes. -/
structure Slot.Sound (slot : Slot) : Prop where
  code_of_record : ∀ record, slot.record = some record →
    slot.code = .ok ∨ slot.code = .udfBadResponse ∧ (record.get? Udf.failureBin).isSome
  hasWrite_of_inDoubt : slot.inDoubt = true → slot.hasWrite = true

/-- The rows that have answered a slot are counted, and an error among them is noted. -/
structure Tally.Balanced (tally : Tally) : Prop where
  sound : ∀ slot ∈ tally.slots, slot.Sound
  rows_eq : tally.rows = tally.slots.countP fun slot => !slot.isPending
  hasRowError_eq : tally.hasRowError =
    tally.slots.any fun slot => !slot.isPending && slot.fault?.isSome

variable {slot : Slot} {slots : List Slot} {header : Header} {record : Record} {plan : Plan}
  {tally next : Tally} {state final : Reassembly} {history : History} {result : Except Fault Unit}

theorem Slot.Blank.sound (h : slot.Blank) : slot.Sound where
  code_of_record := by
    intro record hrecord
    rw [h.record_eq] at hrecord
    cases hrecord
  hasWrite_of_inDoubt := by
    intro hdoubt
    rw [h.inDoubt_eq] at hdoubt
    cases hdoubt

theorem Slot.record_eq_none_of_isPending (h : slot.Sound) (hpending : slot.isPending = true) :
    slot.record = none := by
  have hcode : slot.code = .noResponse := beq_iff_eq.mp hpending
  cases hrecord : slot.record with
  | none => rfl
  | some record =>
      rcases h.code_of_record record hrecord with hok | ⟨hscript, -⟩
      · rw [hcode] at hok
        cases hok
      · rw [hcode] at hscript
        cases hscript

/-- A slot has a fault unless it succeeded, or reads and its record is not there. -/
theorem Slot.isSome_fault?_iff :
    slot.fault?.isSome = true ↔ slot.code ≠ .ok ∧ ¬ (slot.code = .keyNotFound ∧ !slot.hasWrite) := by
  rw [fault?]
  by_cases hok : slot.code = .ok
  · simp [hok]
  by_cases hmissing : slot.code = .keyNotFound ∧ !slot.hasWrite
  · simp only [if_neg hok, if_pos hmissing]
    simp [hmissing]
  · simp only [if_neg hok, if_neg hmissing]
    refine iff_of_true ?_ ⟨hok, hmissing⟩
    split <;> rfl

theorem Slot.isSome_fault?_of_isPending (hpending : slot.isPending = true) :
    slot.fault?.isSome = true := by
  have hcode : slot.code = .noResponse := beq_iff_eq.mp hpending
  rw [isSome_fault?_iff, hcode]
  exact ⟨by decide, fun hmissing => absurd hmissing.1 (by decide)⟩

theorem Slot.isPending_answer (slot : Slot) (header : Header) (record : Record) :
    (slot.answer header record).1.isPending = false := by
  have hcode : (slot.answer header record).1.code = header.resultCode := by
    rw [answer]
    split
    · next hok => exact hok.symm
    · split
      · rfl
      · split <;> rfl
  rw [isPending, hcode, beq_eq_false_iff_ne]
  exact Int.ne_of_gt (Int.lt_of_lt_of_le (by decide) (Int.natCast_nonneg header.code.toNat))

/-- What is noted of a row is what its slot reports afterwards. -/
theorem Slot.isError_answer (slot : Slot) (header : Header) (record : Record) :
    (slot.answer header record).2 = (slot.answer header record).1.fault?.isSome := by
  rw [Bool.eq_iff_iff, isSome_fault?_iff, answer]
  by_cases hok : header.resultCode = .ok
  · simp only [if_pos hok]
    exact iff_of_false Bool.false_ne_true fun h => h.1 rfl
  by_cases hmissing : header.resultCode = .keyNotFound ∧ !slot.hasWrite
  · simp only [if_neg hok, if_pos hmissing]
    exact iff_of_false Bool.false_ne_true fun h => h.2 hmissing
  by_cases hscript : header.resultCode = .udfBadResponse ∧ (record.get? Udf.failureBin).isSome
  · simp only [if_neg hok, if_neg hmissing, if_pos hscript]
    exact iff_of_true trivial ⟨hok, hmissing⟩
  · simp only [if_neg hok, if_neg hmissing, if_neg hscript]
    exact iff_of_true trivial ⟨hok, hmissing⟩

theorem Slot.Sound.answer (h : slot.Sound) (hpending : slot.isPending = true) (header : Header)
    (record : Record) : (slot.answer header record).1.Sound := by
  have hnone := Slot.record_eq_none_of_isPending h hpending
  rw [Slot.answer]
  split
  · exact ⟨fun _ _ => .inl rfl, h.hasWrite_of_inDoubt⟩
  · split
    · refine ⟨fun given hgiven => ?_, h.hasWrite_of_inDoubt⟩
      cases hgiven
    · split
      · next hscript =>
          refine ⟨fun given hgiven => .inr ⟨hscript.1, ?_⟩, fun hdoubt => ?_⟩
          · obtain rfl := Option.some.inj hgiven
            exact hscript.2
          · cases hdoubt
      · refine ⟨fun given hgiven => ?_, fun hdoubt => ?_⟩
        · cases hnone.symm.trans hgiven
        · exact (Bool.and_eq_true_iff.mp hdoubt).1

theorem Slot.isPending_sweep (slot : Slot) : slot.sweep.isPending = slot.isPending := by
  rw [sweep]
  split <;> rfl

theorem Slot.Sound.sweep (h : slot.Sound) : slot.sweep.Sound := by
  rw [Slot.sweep]
  split
  · exact ⟨h.code_of_record, id⟩
  · exact h

/-- A record that is not there counts as an error exactly for a slot that writes. -/
theorem Slot.isSome_fault?_of_keyNotFound (hcode : slot.code = .keyNotFound) :
    slot.fault?.isSome = slot.hasWrite := by
  rw [Bool.eq_iff_iff, isSome_fault?_iff, hcode]
  cases slot.hasWrite <;> decide

/-! ### Rows -/

namespace Tally

theorem balanced_blank (hblank : ∀ slot ∈ slots, slot.Blank) : ({ slots } : Tally).Balanced where
  sound slot hmem := (hblank slot hmem).sound
  rows_eq := by
    symm
    rw [List.countP_eq_zero]
    intro slot hmem
    rw [(hblank slot hmem).isPending]
    exact Bool.false_ne_true
  hasRowError_eq := by
    symm
    rw [List.any_eq_false]
    intro slot hmem
    rw [(hblank slot hmem).isPending]
    exact Bool.false_ne_true

/-- A row answers one slot that is pending, or none. -/
theorem place_cases (h : tally.place plan header record = .ok next) :
    next = tally ∨ ∃ front slot back, tally.slots = front ++ slot :: back ∧
      slot.isPending = true ∧
      next = { slots := front ++ (slot.answer header record).1 :: back
               rows := tally.rows + 1
               hasRowError := tally.hasRowError || (slot.answer header record).2 } := by
  rw [place] at h
  cases hindex : plan.slot header.index with
  | error fault =>
      rw [hindex] at h
      cases h
  | ok index =>
      rw [hindex] at h
      simp only [bind, Except.bind] at h
      cases hslot : tally.slots[index]? with
      | none =>
          rw [hslot] at h
          cases h
      | some slot =>
          rw [hslot] at h
          obtain ⟨hinside, rfl⟩ := List.getElem?_eq_some_iff.mp hslot
          dsimp only at h
          split at h
          · next hpending =>
              obtain ⟨front, back, hsplit, -, hset⟩ :=
                @List.exists_of_set _ _ (tally.slots[index].answer header record).1 _ hinside
              refine .inr ⟨front, tally.slots[index], back, hsplit, hpending, ?_⟩
              rw [← hset]
              exact (Except.ok.inj h).symm
          · exact .inl (Except.ok.inj h).symm

theorem Balanced.place (h : tally.Balanced) (hplace : tally.place plan header record = .ok next) :
    next.Balanced := by
  rcases place_cases hplace with rfl | ⟨front, slot, back, hsplit, hpending, rfl⟩
  · exact h
  obtain ⟨hsound, hrows, hnoted⟩ := h
  have hanswered := slot.isPending_answer header record
  rw [hsplit] at hsound hrows hnoted
  simp only [List.forall_mem_append, List.forall_mem_cons] at hsound
  refine ⟨?_, ?_, ?_⟩
  · simp only [List.forall_mem_append, List.forall_mem_cons]
    exact ⟨hsound.1, hsound.2.1.answer hpending header record, hsound.2.2⟩
  · simp only [List.countP_append, List.countP_cons, hpending, hanswered] at hrows ⊢
    simp only [hrows]
    rfl
  · simp only [List.any_append, List.any_cons, hpending, hanswered, slot.isError_answer] at hnoted ⊢
    rw [hnoted]
    simp only [Bool.not_true, Bool.not_false, Bool.false_and, Bool.true_and, Bool.false_or]
    rw [Bool.or_assoc, Bool.or_comm (back.any _)]

theorem Balanced.placeAll (h : tally.Balanced) (rows : List AnswerRow) :
    (tally.placeAll plan rows).1.Balanced := by
  induction rows generalizing tally with
  | nil => exact h
  | cons row rows ih =>
      rw [Tally.placeAll]
      cases hplace : tally.place plan row.1 row.2 with
      | error fault => exact h
      | ok next => exact ih (h.place hplace)

theorem Balanced.takeGroup (h : tally.Balanced) (body : Bytes) :
    (tally.takeGroup plan body).1.Balanced := by
  rw [Tally.takeGroup]
  rcases unfold readRow body.length { rest := body } with ⟨rows, ending⟩
  have hplaced : (tally.placeAll plan rows).1.Balanced := h.placeAll rows
  rcases hplace : tally.placeAll plan rows with ⟨middle, fault⟩
  rw [hplace] at hplaced
  simp only [hplace]
  cases fault <;> exact hplaced

/-- A slot that nothing has answered has a fault too, so at the end every fault is noted. -/
theorem Balanced.hasRowError_finish (h : tally.Balanced) :
    tally.finish.hasRowError = tally.slots.any fun slot => slot.fault?.isSome := by
  have hpending := fun slot : Slot => slot.isSome_fault?_of_isPending
  rw [finish, h.hasRowError_eq, Bool.eq_iff_iff]
  simp only [Bool.or_eq_true, List.any_eq_true, Bool.and_eq_true, Bool.not_eq_true']
  constructor
  · rintro (⟨slot, hmem, -, hfault⟩ | ⟨slot, hmem, hslot⟩)
    · exact ⟨slot, hmem, hfault⟩
    · exact ⟨slot, hmem, hpending slot hslot⟩
  · rintro ⟨slot, hmem, hfault⟩
    cases hslot : slot.isPending with
    | false => exact .inl ⟨slot, hmem, hslot, hfault⟩
    | true => exact .inr ⟨slot, hmem, hslot⟩

end Tally

/-! ### The whole answer -/

namespace Reassembly

/-- Nothing but rows changes what has been counted. The induction is on the fuel. -/
theorem keeps_balanced_readGroups (fuel : Nat) :
    Keeps (fun state : Reassembly => state.tally.Balanced) (fun _ => True)
      (readGroups plan fuel) := by
  have hreading : ∀ {α : Type} (activity : FrameReader.Reading α),
      Keeps (fun state : Reassembly => state.tally.Balanced) (fun _ => True) (reading activity) := by
    intro α activity state history result final hstate hends
    obtain ⟨reader, -, rfl⟩ := yields_reading_iff.mp hends
    exact ⟨hstate, fun _ _ => trivial⟩
  induction fuel with
  | zero => exact keeps_pure _
  | succ fuel ih =>
      refine keeps_bind (hreading _) fun found => ?_
      cases found with
      | none => exact keeps_pure _
      | some body =>
          refine keeps_get_bind fun state hstate => ?_
          have htaken : (state.tally.takeGroup plan body).1.Balanced := hstate.takeGroup body
          dsimp only
          refine keeps_bind (keeps_modify fun _ _ => htaken) fun _ => ?_
          split
          · exact keeps_throw trivial
          · exact hreading _
          · exact ih

theorem run_balanced (hbalanced : state.tally.Balanced)
    (h : Yields (run plan) state history result final) :
    ∃ tally : Tally, tally.Balanced ∧
      final.tally = if result = .ok () then tally.finish else tally := by
  rw [run, yields_get_bind_iff] at h
  rcases yields_bind_iff.mp h with
    ⟨fault, hread, rfl⟩ | ⟨front, back, ⟨⟩, middle, rfl, hread, hfinish⟩
  · exact ⟨final.tally, (keeps_balanced_readGroups _ _ _ _ _ hbalanced hread).1, rfl⟩
  · obtain ⟨rfl, rfl, rfl⟩ := yields_modify_iff.mp hfinish
    exact ⟨middle.tally, (keeps_balanced_readGroups _ _ _ _ _ hbalanced hread).1, rfl⟩

end Reassembly

end RecordGateway.Batch

namespace RecordGateway.Client

open Batch RecordGateway.Flow

variable {client : Client} {policy : Policy} {slots result : List Slot} {history : History}

theorem exchangeBatch_balanced {given : Except Fault Unit} {tally : Tally}
    (hblank : ∀ slot ∈ slots, slot.Blank)
    (h : (client.exchangeBatch policy slots).Ends history (given, tally)) :
    ∃ counted : Tally, counted.Balanced ∧
      tally = if given = .ok () then counted.finish else counted := by
  unfold exchangeBatch at h
  obtain ⟨opening, rest, opened, rfl, -, hrest⟩ := ends_bind_iff.mp h
  have hstart := Tally.balanced_blank hblank
  cases opened with
  | error fault =>
      obtain ⟨rfl, hresult⟩ := ends_pure_iff.mp hrest
      obtain ⟨rfl, rfl⟩ := Prod.mk.inj hresult
      exact ⟨_, hstart, rfl⟩
  | ok reader =>
      obtain ⟨reading, last, ⟨found, state⟩, rfl, hreading, hlast⟩ := ends_bind_iff.mp hrest
      obtain ⟨rfl, hresult⟩ := ends_pure_iff.mp hlast
      obtain ⟨rfl, rfl⟩ := Prod.mk.inj hresult
      have hbalanced : (Reassembly.mk reader { slots }).tally.Balanced := hstart
      exact Reassembly.run_balanced hbalanced hreading

/-- The verdict on a batch is that no slot has a fault, and then none is pending. Whether the call
succeeds or fails, the rows that have been counted are the slots that are not pending, a slot holds a
record only if it succeeded or its script says in it how it failed, only a write is in doubt, and a
missing record is a fault exactly of a slot that writes. -/
theorem batch_verdict_matches_slots {outcome : Except Fault Bool}
    (h : (client.batch policy slots).Ends history (outcome, result)) :
    (∀ verdict, outcome = .ok verdict →
      (verdict = true ↔ ∀ slot ∈ result, slot.fault? = none)) ∧
    (outcome = .ok true → ∀ slot ∈ result, slot.isPending = false) ∧
    (∀ slot ∈ result,
      slot.Sound ∧ (slot.code = .keyNotFound → slot.fault?.isSome = slot.hasWrite)) ∧
    (slots = [] ∧ result = [] ∨ ∃ given tally,
      (client.exchangeBatch policy (slots.map Slot.reset)).Ends history (given, tally) ∧
        tally.rows = result.countP fun slot => !slot.isPending) := by
  have hblank : ∀ slot ∈ slots.map Slot.reset, slot.Blank := by
    intro slot hmem
    obtain ⟨original, -, rfl⟩ := List.mem_map.mp hmem
    exact original.blank_reset
  unfold batch at h
  dsimp only at h
  split at h
  · next hempty =>
      obtain ⟨rfl, hresult⟩ := ends_pure_iff.mp h
      obtain ⟨rfl, rfl⟩ := Prod.mk.inj hresult
      obtain rfl : slots = [] := by simpa using hempty
      refine ⟨?_, nofun, nofun, .inl ⟨rfl, rfl⟩⟩
      rintro _ ⟨⟩
      exact iff_of_true rfl nofun
  obtain ⟨exchanging, rest, ⟨given, tally⟩, rfl, hexchange, hrest⟩ := ends_bind_iff.mp h
  obtain ⟨counted, hcounted, htally⟩ := exchangeBatch_balanced hblank hexchange
  cases given with
  | ok done =>
      obtain ⟨rfl, hresult⟩ := ends_pure_iff.mp hrest
      obtain ⟨rfl, rfl⟩ := Prod.mk.inj hresult
      rw [if_pos rfl] at htally
      subst htally
      have hverdict : (!counted.finish.hasRowError) = true ↔
          ∀ slot ∈ counted.slots, slot.fault? = none := by
        rw [hcounted.hasRowError_finish, Bool.not_eq_true', List.any_eq_false]
        refine forall₂_congr fun slot _ => ?_
        rw [Bool.not_eq_true, Option.isSome_eq_false_iff, Option.isNone_iff_eq_none]
      refine ⟨?_, ?_, fun slot hmem => ⟨?_, Slot.isSome_fault?_of_keyNotFound⟩,
        .inr ⟨.ok done, counted.finish, ?_, hcounted.rows_eq⟩⟩
      · rintro _ ⟨⟩
        exact hverdict
      · intro hok slot hmem
        have hnone := hverdict.mp (Except.ok.inj hok) slot hmem
        cases hpending : slot.isPending with
        | false => rfl
        | true =>
            have hsome := Slot.isSome_fault?_of_isPending hpending
            rw [hnone] at hsome
            cases hsome
      · exact hcounted.sound slot hmem
      · rwa [List.append_nil]
  | error fault =>
      obtain ⟨rfl, hresult⟩ := ends_pure_iff.mp hrest
      obtain ⟨rfl, rfl⟩ := Prod.mk.inj hresult
      rw [if_neg nofun] at htally
      subst htally
      refine ⟨nofun, nofun, fun slot hmem => ⟨?_, Slot.isSome_fault?_of_keyNotFound⟩,
        .inr ⟨.error fault, tally, ?_, ?_⟩⟩
      · obtain ⟨answered, hanswered, rfl⟩ := List.mem_map.mp hmem
        exact (hcounted.sound answered hanswered).sweep
      · rwa [List.append_nil]
      · rw [List.countP_map, hcounted.rows_eq]
        refine List.countP_congr fun slot _ => ?_
        rw [Function.comp_apply, slot.isPending_sweep]

/-- A whole answer with the record of the first slot and word that the second has none. -/
def foundAndMissing : List Arrival :=
  [⟨some 0, .ok { payload := Group.plain (Row.bareRow 0 0 7 0 ++ Row.bareRow 1 2 0 0) }⟩]

/-- The verdict of a run can be computed without its slots. -/
theorem ends_of_verdict {surroundings : Surroundings} {verdict : Bool}
    (h : ((client.batch policy slots).runIn surroundings []).1.1.toOption = some verdict) :
    ∃ history result, ((client.batch policy slots).runIn surroundings []).1 = (.ok verdict, result) ∧
      (client.batch policy slots).Ends history (.ok verdict, result) := by
  obtain ⟨history, -, hends⟩ := ends_runIn surroundings (client.batch policy slots) []
  rcases hran : ((client.batch policy slots).runIn surroundings []).1 with ⟨fault | given, result⟩
  · rw [hran] at h
    cases h
  · rw [hran] at h hends
    obtain rfl : given = verdict := Option.some.inj h
    exact ⟨history, result, rfl, hends⟩

theorem batch_with_missing_record :
    let ran := fun slots => ((bareClient.batch {} slots).runIn (answering foundAndMissing) []).1
    (∃ result, ran [Slot.read {} none, Slot.read {} none] = (.ok true, result) ∧
      ∀ slot ∈ result, slot.isPending = false) ∧
    ∃ result, ran [Slot.read {} none, Slot.delete {}] = (.ok false, result) ∧
      ∃ slot ∈ result, slot.fault? ≠ none := by
  intro ran
  have hreads : (ran [Slot.read {} none, Slot.read {} none]).1.toOption = some true := by
    decide +kernel
  have hdelete : (ran [Slot.read {} none, Slot.delete {}]).1.toOption = some false := by
    decide +kernel
  obtain ⟨_, found, hfound, hends⟩ := ends_of_verdict hreads
  obtain ⟨_, missed, hmissed, hmissing⟩ := ends_of_verdict hdelete
  have hverdict := (batch_verdict_matches_slots hmissing).1 false rfl
  obtain ⟨slot, hslot⟩ := not_forall.mp (mt hverdict.mpr Bool.false_ne_true)
  exact ⟨⟨found, hfound, (batch_verdict_matches_slots hends).2.1 rfl⟩, missed, hmissed, slot,
    Classical.not_imp.mp hslot⟩

end RecordGateway.Client
