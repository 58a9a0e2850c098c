import RecordGateway.Batch.Reassembly

/-!
What rows make of slots. A row gives its slot one `Outcome`, and the code of a row is never the code
that stands for no outcome, so an answered slot does not count as pending again. Giving rows to slots
one after the other therefore leaves in each slot the outcome of its first row (`firstRowWins`,
`placeAll_blank`), whatever rows of other slots come in between (`firstRowWins_eq_of_filter`).
-/

namespace RecordGateway.Batch

abbrev AnswerRow := Row.Header × Record

/-- How a slot stands once a row has answered it. -/
structure Outcome where
  record : Option Record
  code : ResultCode
  inDoubt : Bool

/-- The outcome that a row gives to a slot: a record, its absence for a slot that only reads, a script
that failed and says how, or an error, which leaves a write in doubt if it is a timeout. -/
def Outcome.ofRow (hasWrite : Bool) (row : AnswerRow) : Outcome :=
  let code := row.1.resultCode
  if code = .ok then
    { record := some row.2, code := .ok, inDoubt := false }
  else if code = .keyNotFound ∧ !hasWrite then
    { record := none, code, inDoubt := false }
  else if code = .udfBadResponse ∧ (row.2.get? Udf.failureBin).isSome then
    { record := some row.2, code, inDoubt := false }
  else
    { record := none, code, inDoubt := hasWrite && code == .timeout }

def Slot.settle (slot : Slot) (outcome : Outcome) : Slot :=
  { slot with record := outcome.record, code := outcome.code, inDoubt := outcome.inDoubt }

/-- The slot after the first of its rows, if there is one. -/
def Slot.after (slot : Slot) : Option AnswerRow → Slot
  | none => slot
  | some row => slot.settle (Outcome.ofRow slot.hasWrite row)

/-- A slot as it stands before a batch is sent. -/
structure Slot.Blank (slot : Slot) : Prop where
  record_eq : slot.record = none
  code_eq : slot.code = .noResponse
  inDoubt_eq : slot.inDoubt = false

/-- The slot that a row answers, if it exists. -/
def Plan.target? (plan : Plan) (count : Nat) (row : AnswerRow) : Option Nat :=
  plan.offsets[row.1.index.toNat]?.filter (· < count)

/-- The rows before the first that answers no slot. -/
def addressed (plan : Plan) (count : Nat) (rows : List AnswerRow) : List AnswerRow :=
  rows.takeWhile fun row => (plan.target? count row).isSome

/-- The slots when each has the outcome of its first row, and those without a row are untouched. -/
def firstRowWins (plan : Plan) (slots : List Slot) (rows : List AnswerRow) : List Slot :=
  slots.mapIdx fun index slot =>
    slot.after (rows.find? fun row => plan.target? slots.length row == some index)

variable {plan : Plan} {slots : List Slot} {rows : List AnswerRow} {slot : Slot} {row : AnswerRow}

/-! ### One slot -/

theorem Slot.blank_reset (slot : Slot) : slot.reset.Blank :=
  ⟨rfl, rfl, rfl⟩

theorem Slot.Blank.isPending (h : slot.Blank) : slot.isPending = true := by
  rw [Slot.isPending, h.code_eq]
  rfl

theorem Slot.answer_of_blank (h : slot.Blank) (row : AnswerRow) :
    (slot.answer row.1 row.2).1 = slot.settle (Outcome.ofRow slot.hasWrite row) := by
  obtain ⟨key, action, record, code, inDoubt⟩ := slot
  obtain ⟨rfl, rfl, rfl⟩ := h
  rw [Slot.answer, Outcome.ofRow]
  by_cases hok : row.1.resultCode = .ok
  · simp only [if_pos hok]
    rfl
  by_cases hmissing : row.1.resultCode = .keyNotFound ∧
      !Slot.hasWrite ⟨key, action, none, .noResponse, false⟩
  · simp only [if_neg hok, if_pos hmissing]
    rfl
  by_cases hscript : row.1.resultCode = .udfBadResponse ∧ (row.2.get? Udf.failureBin).isSome
  · simp only [if_neg hok, if_neg hmissing, if_pos hscript]
    rfl
  · simp only [if_neg hok, if_neg hmissing, if_neg hscript]
    rfl

theorem Outcome.code_ofRow (hasWrite : Bool) (row : AnswerRow) :
    (Outcome.ofRow hasWrite row).code = row.1.resultCode := by
  rw [Outcome.ofRow]
  split
  · next hok => exact hok.symm
  · split
    · rfl
    · split <;> rfl

/-- The code of a row is a byte, and so never the code that stands for no outcome. -/
theorem Outcome.code_ne_noResponse (hasWrite : Bool) (row : AnswerRow) :
    (Outcome.ofRow hasWrite row).code ≠ .noResponse := by
  rw [code_ofRow]
  exact Int.ne_of_gt (Int.lt_of_lt_of_le (by decide) (Int.natCast_nonneg row.1.code.toNat))

theorem Slot.isPending_settle (slot : Slot) (row : AnswerRow) :
    (slot.settle (Outcome.ofRow slot.hasWrite row)).isPending = false := by
  rw [Slot.isPending, beq_eq_false_iff_ne]
  exact Outcome.code_ne_noResponse _ row

/-- A slot is pending exactly as long as no row has answered it. -/
theorem Slot.isPending_after (h : slot.Blank) (row : Option AnswerRow) :
    (slot.after row).isPending = row.isNone := by
  cases row with
  | none => exact h.isPending
  | some row => exact slot.isPending_settle row

/-- Only a write can be in doubt. -/
theorem Outcome.hasWrite_of_inDoubt {hasWrite : Bool} {row : AnswerRow}
    (h : (Outcome.ofRow hasWrite row).inDoubt = true) : hasWrite = true := by
  rw [Outcome.ofRow] at h
  split at h
  · cases h
  · split at h
    · cases h
    · split at h
      · cases h
      · rw [Bool.and_eq_true] at h
        exact h.1

/-! ### All slots -/

theorem length_firstRowWins : (firstRowWins plan slots rows).length = slots.length :=
  List.length_mapIdx

theorem getElem?_firstRowWins (index : Nat) :
    (firstRowWins plan slots rows)[index]? = slots[index]?.map fun slot =>
      slot.after (rows.find? fun row => plan.target? slots.length row == some index) :=
  List.getElem?_mapIdx

theorem firstRowWins_nil : firstRowWins plan slots [] = slots := by
  refine List.ext_getElem? fun index => ?_
  rw [getElem?_firstRowWins]
  cases slots[index]? <;> rfl

theorem Plan.target?_eq_some_iff {count index : Nat} :
    plan.target? count row = some index ↔ plan.slot row.1.index = .ok index ∧ index < count := by
  rw [Plan.target?, Option.filter_eq_some_iff, decide_eq_true_iff, Plan.slot]
  cases plan.offsets[row.1.index.toNat]? <;> simp

/-- One more row for a slot counts only if it is the first. -/
theorem getElem?_firstRowWins_append (row : AnswerRow) (index : Nat) :
    (firstRowWins plan slots (rows ++ [row]))[index]? =
      if plan.target? slots.length row = some index ∧
          rows.find? (fun earlier => plan.target? slots.length earlier == some index) = none then
        slots[index]?.map fun slot => slot.after (some row)
      else (firstRowWins plan slots rows)[index]? := by
  rw [getElem?_firstRowWins, getElem?_firstRowWins, List.find?_append]
  cases hearlier : rows.find? fun earlier => plan.target? slots.length earlier == some index with
  | some earlier => simp
  | none =>
      by_cases htarget : plan.target? slots.length row = some index
      · simp [htarget]
      · simp [htarget]

namespace Tally

variable {tally : Tally} {before : List AnswerRow} {index : Nat}

theorem place_of_none (htarget : plan.target? tally.slots.length row = none) :
    ∃ fault, tally.place plan row.1 row.2 = .error fault := by
  rw [place]
  cases hslot : plan.slot row.1.index with
  | error fault => exact ⟨fault, rfl⟩
  | ok index =>
      have houtside : tally.slots[index]? = none := by
        rw [List.getElem?_eq_none_iff, ← Nat.not_lt]
        intro hinside
        rw [Plan.target?_eq_some_iff.mpr ⟨hslot, hinside⟩] at htarget
        cases htarget
      simp [bind, Except.bind, houtside]

theorem place_of_some (hblank : ∀ slot ∈ slots, slot.Blank)
    (hslots : tally.slots = firstRowWins plan slots before)
    (htarget : plan.target? slots.length row = some index) :
    ∃ next, tally.place plan row.1 row.2 = .ok next ∧
      next.slots = firstRowWins plan slots (before ++ [row]) := by
  obtain ⟨hslot, hinside⟩ := Plan.target?_eq_some_iff.mp htarget
  have hstart : slots[index]? = some slots[index] := List.getElem?_eq_getElem hinside
  have hfirst := hblank _ (List.getElem_mem hinside)
  have hnow : tally.slots[index]? = some (slots[index].after
      (before.find? fun row => plan.target? slots.length row == some index)) := by
    rw [hslots, getElem?_firstRowWins, hstart]
    rfl
  rw [place]
  simp only [hslot, hnow, bind, Except.bind, Slot.isPending_after hfirst]
  cases hearlier : before.find? fun row => plan.target? slots.length row == some index with
  | some earlier =>
      refine ⟨tally, rfl, ?_⟩
      refine hslots.trans (List.ext_getElem? fun other => ?_)
      rw [getElem?_firstRowWins_append, if_neg]
      rintro ⟨hother, hnone⟩
      obtain rfl := Option.some.inj (htarget.symm.trans hother)
      rw [hearlier] at hnone
      cases hnone
  | none =>
      refine ⟨_, rfl, List.ext_getElem? fun other => ?_⟩
      rw [getElem?_firstRowWins_append, List.getElem?_set]
      by_cases hother : index = other
      · subst hother
        rw [if_pos rfl, if_pos (by rwa [hslots, length_firstRowWins]),
          if_pos ⟨htarget, hearlier⟩, hstart]
        exact congrArg some (Slot.answer_of_blank hfirst row)
      · rw [if_neg hother, if_neg, hslots]
        rintro ⟨hrow, _⟩
        exact hother (Option.some.inj (htarget.symm.trans hrow))

/-- Rows given to blank slots one after the other leave in each slot the outcome of its first row, up
to the row that answers no slot, which is a fault. -/
theorem placeAll_slots (hblank : ∀ slot ∈ slots, slot.Blank)
    (hslots : tally.slots = firstRowWins plan slots before) (rows : List AnswerRow) :
    (tally.placeAll plan rows).1.slots =
        firstRowWins plan slots (before ++ addressed plan slots.length rows) ∧
      ((tally.placeAll plan rows).2 = none ↔
        ∀ row ∈ rows, (plan.target? slots.length row).isSome) := by
  induction rows generalizing tally before with
  | nil => simp [placeAll, addressed, hslots]
  | cons row rows ih =>
      have hlength : tally.slots.length = slots.length := by rw [hslots, length_firstRowWins]
      cases htarget : plan.target? slots.length row with
      | none =>
          obtain ⟨fault, hplace⟩ := place_of_none (hlength ▸ htarget)
          simp [placeAll, hplace, addressed, htarget, hslots]
      | some index =>
          obtain ⟨next, hplace, hnext⟩ := place_of_some hblank hslots htarget
          obtain ⟨hlater, hfault⟩ := ih hnext
          have haddressed : addressed plan slots.length (row :: rows) =
              row :: addressed plan slots.length rows :=
            List.takeWhile_cons_of_pos (by rw [htarget]; rfl)
          rw [placeAll, hplace]
          constructor
          · rw [hlater, haddressed, List.append_assoc]
            rfl
          · rw [hfault, List.forall_mem_cons, htarget]
            simp

theorem placeAll_blank (plan : Plan) (hblank : ∀ slot ∈ slots, slot.Blank) (rows : List AnswerRow) :
    (placeAll plan { slots } rows).1.slots =
        firstRowWins plan slots (addressed plan slots.length rows) ∧
      ((placeAll plan { slots } rows).2 = none ↔
        ∀ row ∈ rows, (plan.target? slots.length row).isSome) := by
  have hslots : ({ slots } : Tally).slots = firstRowWins plan slots [] := firstRowWins_nil.symm
  exact placeAll_slots hblank hslots rows

/-- What is given first stays where it is when more follows. -/
theorem placeAll_append (tally : Tally) (front back : List AnswerRow) :
    tally.placeAll plan (front ++ back) =
      match tally.placeAll plan front with
      | (middle, none) => middle.placeAll plan back
      | failed => failed := by
  induction front generalizing tally with
  | nil => rfl
  | cons row front ih =>
      rw [List.cons_append, placeAll, placeAll]
      cases tally.place plan row.1 row.2 with
      | error fault => rfl
      | ok next => exact ih next

end Tally

/-- Only the order of the rows of one slot counts. -/
theorem firstRowWins_eq_of_filter {rows' : List AnswerRow}
    (hsame : ∀ index, rows.filter (fun row => plan.target? slots.length row == some index) =
      rows'.filter fun row => plan.target? slots.length row == some index) :
    firstRowWins plan slots rows = firstRowWins plan slots rows' := by
  refine List.ext_getElem? fun index => ?_
  rw [getElem?_firstRowWins, getElem?_firstRowWins, ← List.head?_filter, ← List.head?_filter,
    hsame index]

end RecordGateway.Batch
