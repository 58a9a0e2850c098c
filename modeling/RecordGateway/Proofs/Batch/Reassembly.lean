import Mathlib.Data.List.TakeWhile
import RecordGateway.Proofs.Batch.Outcome
import RecordGateway.Proofs.FrameReader.Progress
import RecordGateway.Proofs.Row.Harvest

/-!
Putting the answer to a batch together. Whether reading succeeds or fails, and wherever the frames are
cut, the slots are those that the rows of the bytes that have arrived make of them
(`readGroups_spec`). Reading succeeds exactly on an answer that is whole, so in surroundings that cut
nothing off the slots are a function of the rows alone (`run_of_whole_answer`).
-/

namespace RecordGateway.Batch

open RecordGateway.Flow FrameReader Row

/-! ### Rows of an answer -/

theorem headerFirst_readRow : Tally.readRow.HeaderFirst := by
  unfold Tally.readRow
  refine ⟨_, fun header => ?_, rfl⟩
  split
  · exact Reader.Local.guard (local_pure none)
  · refine (local_skipKey _).bind fun _ => ?_
    exact (local_readRecord header).bind fun record => local_pure _

theorem local_readRow : Tally.readRow.Local :=
  local_of_headerFirst headerFirst_readRow

theorem needy_readRow : Tally.readRow.Needy :=
  needy_of_headerFirst headerFirst_readRow

/-- A row that can be read without its key is a row of an answer, unless it is the row after the last. -/
theorem run_readRow_of_anonymous {cursor final : Cursor} {row : AnswerRow}
    (h : readAnonymous.run.run cursor = (.ok row, final)) (hmore : row.1.isLast = false) :
    Tally.readRow.run.run cursor = (.ok (some row), final) := by
  obtain ⟨middle, behind, hheader, hskip, hrecord⟩ := run_readAnonymous_ok_iff.mp h
  unfold Tally.readRow
  refine run_bind_ok_iff.mpr ⟨row.1, middle, hheader, ?_⟩
  rw [if_neg (Bool.not_eq_true _ ▸ hmore)]
  refine run_bind_ok_iff.mpr ⟨(), behind, hskip, ?_⟩
  exact run_bind_ok_iff.mpr ⟨row.2, final, hrecord, rfl⟩

/-- The bytes of a whole answer and its rows: groups of rows, of which one may hold the row after the
last. What follows that row has no part in the answer. -/
inductive Answers : Bytes → List AnswerRow → Prop where
  | nil : Answers [] []
  | group {wire body later : Bytes} {rows more : List AnswerRow} :
      Group.Packs wire body → SpellsAll Tally.readRow body rows → Answers later more →
      Answers (wire ++ later) (rows ++ more)
  | last {wire front mark junk trailing : Bytes} {rows : List AnswerRow} :
      Group.Packs wire (front ++ (mark ++ junk)) → SpellsAll Tally.readRow front rows →
      Spells Tally.readRow mark none →
      Answers (wire ++ trailing) rows

/-- The rows of a whole answer are all that its bytes hold. -/
theorem Answers.harvest_eq {bytes : Bytes} {rows : List AnswerRow} (h : Answers bytes rows) :
    (harvest Tally.readRow bytes).rows = rows ∧ (harvest Tally.readRow bytes).Whole := by
  induction h with
  | nil => exact ⟨rfl, .inr ⟨rfl, rfl⟩⟩
  | group hpacks hrows _ ih =>
      rw [harvest_of_more (hpacks.first?_eq _) (unfold_body local_readRow needy_readRow hrows)]
      exact ⟨congrArg _ ih.1, ih.2⟩
  | last hpacks hrows hmark =>
      rw [harvest_of_end (hpacks.first?_eq _)
        (unfold_last_body local_readRow needy_readRow _ hrows hmark) (by simp)]
      exact ⟨rfl, .inl rfl⟩

namespace Reassembly

variable {plan : Plan} {tally : Tally} {start : List Arrival} {taken : Nat} {consumed : Bytes}
  {state final : Reassembly} {history : History} {result : Except Fault Unit}

/-- The bytes are a whole answer of which every row has its slot. -/
def Settles (plan : Plan) (tally : Tally) (bytes : Bytes) : Prop :=
  (tally.placeAll plan (harvest Tally.readRow bytes).rows).2 = none ∧
    (harvest Tally.readRow bytes).Whole

def answeredBy (plan : Plan) (tally : Tally) (bytes : Bytes) : Tally :=
  (tally.placeAll plan (harvest Tally.readRow bytes).rows).1

/-- What reading groups can come to. The slots are in either case those that the bytes make of them
which have arrived; and reading fails only if there is trouble or the bytes are not an answer. -/
inductive ReadGroups (plan : Plan) (tally : Tally) (start : List Arrival) (taken : Nat)
    (consumed : Bytes) (history : History) : Except Fault Unit → Tally → Prop where
  | complete {bytes : Bytes} :
      Stopped start (taken + arrivalCount history) consumed bytes →
      payload start = consumed ++ bytes → Settles plan tally bytes →
      ReadGroups plan tally start taken consumed history (.ok ()) (answeredBy plan tally bytes)
  | broken {bytes : Bytes} {fault : Fault} :
      Stopped start (taken + arrivalCount history) consumed bytes →
      (Trouble start history ∨
        ∀ rest, payload start = consumed ++ rest → ¬ Settles plan tally rest) →
      ReadGroups plan tally start taken consumed history (.error fault)
        (answeredBy plan tally bytes)

theorem yields_reading_iff {α : Type} {activity : FrameReader.Reading α}
    {result : Except Fault α} :
    Yields (reading activity) state history result final ↔
      ∃ reader, Yields activity state.reader history result reader ∧
        final = { state with reader } :=
  yields_focus_iff Reassembly.reader fun state reader => { state with reader }

/-! ### One group -/

section Group

variable {wire body more : Bytes} {rows : List AnswerRow} {middle : Tally}

theorem settles_group_iff (hwire : ∀ rest, Group.first? (wire ++ rest) = some (body, rest))
    (hrows : unfold Tally.readRow body.length { rest := body } = (rows, .ok false))
    (hplace : tally.placeAll plan rows = (middle, none)) (more : Bytes) :
    answeredBy plan tally (wire ++ more) = answeredBy plan middle more ∧
      (Settles plan tally (wire ++ more) ↔ Settles plan middle more) := by
  rw [answeredBy, Settles, harvest_of_more (hwire more) hrows, Tally.placeAll_append, hplace]
  exact ⟨rfl, Iff.rfl⟩

theorem settles_end_iff (plan : Plan) (tally : Tally) {ending : Except Fault Bool}
    (hwire : ∀ rest, Group.first? (wire ++ rest) = some (body, rest))
    (hrows : unfold Tally.readRow body.length { rest := body } = (rows, ending))
    (hending : ending ≠ .ok false) (more : Bytes) :
    answeredBy plan tally (wire ++ more) = (tally.placeAll plan rows).1 ∧
      (Settles plan tally (wire ++ more) ↔
        (tally.placeAll plan rows).2 = none ∧ ending = .ok true) := by
  rw [answeredBy, Settles, harvest_of_end (hwire more) hrows hending, Harvest.Whole]
  exact ⟨rfl, by tauto⟩

theorem settles_misplaced {ending : Except Fault Bool} {fault : Fault}
    (hwire : ∀ rest, Group.first? (wire ++ rest) = some (body, rest))
    (hrows : unfold Tally.readRow body.length { rest := body } = (rows, ending))
    (hplace : tally.placeAll plan rows = (middle, some fault)) (more : Bytes) :
    answeredBy plan tally (wire ++ more) = middle ∧ ¬ Settles plan tally (wire ++ more) := by
  by_cases hending : ending = .ok false
  · subst hending
    rw [answeredBy, Settles, harvest_of_more (hwire more) hrows, Tally.placeAll_append, hplace]
    exact ⟨rfl, fun h => nomatch h.1⟩
  · obtain ⟨hslots, hsettles⟩ := settles_end_iff plan tally hwire hrows hending more
    rw [hslots, hsettles, hplace]
    exact ⟨rfl, fun h => nomatch h.1⟩

end Group

/-! ### All groups -/

/-- A group whose rows have slots and do not end the answer leaves what more groups come to. -/
theorem ReadGroups.later {front back : History} {wire body : Bytes} {rows : List AnswerRow}
    {middle last : Tally}
    (hwire : ∀ rest, Group.first? (wire ++ rest) = some (body, rest))
    (hrows : unfold Tally.readRow body.length { rest := body } = (rows, .ok false))
    (hplace : tally.placeAll plan rows = (middle, none)) (hbegins : consumed ++ wire <+: payload start)
    (h : ReadGroups plan middle start (taken + arrivalCount front) (consumed ++ wire) back result
      last) :
    ReadGroups plan tally start taken consumed (front ++ back) result last := by
  have hgroup := settles_group_iff hwire hrows hplace
  cases h with
  | @complete bytes hstopped hpayload hsettles =>
      rw [Nat.add_assoc, ← arrivalCount_append, Stopped, List.append_assoc] at hstopped
      rw [List.append_assoc] at hpayload
      rw [← (hgroup bytes).1]
      exact .complete hstopped hpayload ((hgroup bytes).2.mpr hsettles)
  | @broken bytes fault hstopped hwhy =>
      rw [Nat.add_assoc, ← arrivalCount_append, Stopped, List.append_assoc] at hstopped
      rw [← (hgroup bytes).1]
      refine .broken hstopped (hwhy.imp Trouble.append_right fun hnot rest hrest hsettles => ?_)
      obtain ⟨more, hmore⟩ := hbegins
      rw [hrest, List.append_assoc] at hmore
      obtain rfl := List.append_cancel_left hmore
      exact hnot more (by rw [hrest, List.append_assoc]) ((hgroup more).2.mp hsettles)

/-- A group after which no bytes are an answer, whatever they are. -/
theorem ReadGroups.stop {reader : FrameReader} {wire : Bytes} {fault : Fault} {last : Tally}
    (hreached : Reached start (taken + arrivalCount history) (consumed ++ wire) reader)
    (hend : ∀ more, answeredBy plan tally (wire ++ more) = last ∧
      ¬ Settles plan tally (wire ++ more)) :
    ReadGroups plan tally start taken consumed history (.error fault) last := by
  rw [← (hend reader.buffer).1]
  refine .broken ?_ (.inr fun rest hrest => ?_)
  · rw [Stopped, hreached.payload_eq, List.append_assoc]
  · obtain ⟨more, rfl⟩ := hreached.rest_eq hrest
    exact (hend _).2

/-- A group with the row after the last: what follows it is passed over, up to the last frame. -/
theorem ReadGroups.drain {front back : History} {reader drained : FrameReader} {wire : Bytes}
    {last : Tally}
    (hreached : Reached start (taken + arrivalCount front) (consumed ++ wire) reader)
    (hend : ∀ more, answeredBy plan tally (wire ++ more) = last ∧ Settles plan tally (wire ++ more))
    (hdrain : Yields FrameReader.drain reader back result drained) :
    ReadGroups plan tally start taken consumed (front ++ back) result last := by
  obtain ⟨more, ⟨rfl, hended, -, hfinal⟩ | ⟨fault, rfl, hstopped, htrouble⟩⟩ :=
    drain_spec hreached hdrain
  · have hpayload := hfinal.payload_eq
    rw [Nat.add_assoc, ← arrivalCount_append, List.append_assoc, List.append_assoc] at hpayload
    have hall := (hfinal.complete hended).1
    rw [Nat.add_assoc, ← arrivalCount_append, hpayload] at hall
    rw [← (hend (more ++ drained.buffer)).1]
    exact .complete hpayload hall (hend _).2
  · rw [Nat.add_assoc, ← arrivalCount_append, Stopped, List.append_assoc] at hstopped
    rw [← (hend more).1]
    exact .broken hstopped (.inl htrouble.append_right)

/-- Reading fails where no whole sound group is left. -/
theorem ReadGroups.unread {left : Bytes} {fault : Fault}
    (hstopped : Stopped start (taken + arrivalCount history) consumed left)
    (hleft : Group.first? left = none)
    (hwhy : Trouble start history ∨ ∀ rest, payload start = consumed ++ rest →
      rest ≠ [] ∧ Group.first? rest = none) :
    ReadGroups plan tally start taken consumed history (.error fault) tally := by
  have hslots : answeredBy plan tally left = tally := by
    rw [answeredBy, harvest_of_none hleft]
    rfl
  have hbroken : ReadGroups plan tally start taken consumed history (.error fault)
      (answeredBy plan tally left) := by
    refine .broken hstopped (hwhy.imp_right fun hnone rest hall hsettles => ?_)
    obtain ⟨hsome, hfirst⟩ := hnone rest hall
    have hwhole := hsettles.2
    rw [harvest_of_none hfirst] at hwhole
    rcases hwhole with hended | ⟨_, hnil⟩
    · cases hended
    · exact hsome hnil
  rwa [hslots] at hbroken

/-- The induction is on the fuel; the slots and the bytes consumed so far carry it. -/
theorem readGroups_spec {fuel : Nat} (hreached : Reached start taken consumed state.reader)
    (hfuel : (payload start).length < consumed.length + fuel)
    (h : Yields (readGroups plan fuel) state history result final) :
    ReadGroups plan state.tally start taken consumed history result final.tally := by
  induction fuel generalizing state taken consumed history with
  | zero => exact absurd hfuel (Nat.not_lt.mpr hreached.length_le)
  | succ fuel ih =>
      rw [readGroups] at h
      rcases yields_bind_iff.mp h with
        ⟨fault, hread, rfl⟩ | ⟨front, back, found, next, rfl, hread, hrest⟩
      · obtain ⟨reader, hgroup, rfl⟩ := yields_reading_iff.mp hread
        cases readGroup_spec hreached hgroup with
        | failed hstopped hleft hwhy => exact .unread hstopped hleft hwhy
      obtain ⟨reader, hgroup, rfl⟩ := yields_reading_iff.mp hread
      cases readGroup_spec hreached hgroup with
      | finished hfinal hended hnil =>
          obtain ⟨rfl, rfl, rfl⟩ := yields_pure_iff.mp hrest
          have hpayload := hfinal.payload_eq
          rw [hnil] at hpayload
          rw [List.append_nil]
          refine .complete hpayload ?_ ⟨rfl, .inr ⟨rfl, rfl⟩⟩
          rw [(hfinal.complete hended).1, hpayload]
      | @group body wire _ hfinal hwire =>
          rcases hrows : unfold Tally.readRow body.length { rest := body } with ⟨rows, ending⟩
          rcases hplace : state.tally.placeAll plan rows with ⟨middle, misplaced⟩
          have htake : state.tally.takeGroup plan body = (middle, misplaced.elim ending .error) := by
            rw [Tally.takeGroup, hrows]
            simp only [hplace]
            cases misplaced <;> rfl
          simp only [yields_get_bind_iff, htake] at hrest
          rw [yields_modify_bind_iff] at hrest
          cases misplaced with
          | some fault =>
              -- The rows before the one without a slot stay where they are.
              obtain ⟨rfl, rfl, rfl⟩ := yields_throw_iff.mp hrest
              rw [List.append_nil]
              exact .stop hfinal (settles_misplaced hwire hrows hplace)
          | none =>
              rcases ending with fault | ended
              · obtain ⟨rfl, rfl, rfl⟩ := yields_throw_iff.mp hrest
                have hend := settles_end_iff plan state.tally hwire hrows (by simp)
                rw [List.append_nil]
                refine .stop hfinal fun more => ⟨?_, fun hsettles => ?_⟩
                · rw [(hend more).1, hplace]
                · cases ((hend more).2.mp hsettles).2
              · cases ended with
                | true =>
                    obtain ⟨drained, hdrain, rfl⟩ := yields_reading_iff.mp hrest
                    have hend :=
                      settles_end_iff plan state.tally hwire hrows (by simp)
                    refine .drain hfinal (fun more => ⟨?_, ?_⟩) hdrain
                    · rw [(hend more).1, hplace]
                    · rw [(hend more).2, hplace]
                      exact ⟨rfl, rfl⟩
                | false =>
                    have hbegins : consumed ++ wire <+: payload start :=
                      (List.prefix_append _ _).trans (hfinal.payload_eq ▸ hfinal.payload_prefix)
                    have hnext : Reached start (taken + arrivalCount front) (consumed ++ wire)
                        (Reassembly.mk reader middle).reader := hfinal
                    exact .later hwire hrows hplace hbegins
                      (ih hnext (lt_fuel_after_group hwire hfuel) hrest)

/-- Reading the answer to a batch from its beginning. The slots are those that the rows make of them
which have arrived; it succeeds on a whole answer, and fails on one only if there is trouble. -/
theorem run_spec {stream : FrameStream} {limits : Limits} {reporter : Fault.Reporter}
    (h : Yields (run plan) ⟨{ stream, limits, reporter }, tally⟩ history result final) :
    let bytes := payload (stream.arrivals.take (arrivalCount history))
    final.tally.slots = (answeredBy plan tally bytes).slots ∧
      (result = .ok () →
        payload stream.arrivals = bytes ∧ Settles plan tally bytes ∧
          final.tally = (answeredBy plan tally bytes).finish) ∧
      (∀ fault, result = .error fault →
        Trouble stream.arrivals history ∨ ¬ Settles plan tally (payload stream.arrivals)) := by
  unfold run at h
  rw [yields_get_bind_iff] at h
  have hfuel := length_payload_lt_fuel { stream, limits, reporter }
  have hbeginning := reached_beginning stream limits reporter
  rcases yields_bind_iff.mp h with ⟨fault, hread, rfl⟩ | ⟨front, back, _, middle, rfl, hread, hfinish⟩
  · have hgroups := readGroups_spec hbeginning hfuel hread
    generalize hlast : final.tally = last at hgroups ⊢
    cases hgroups with
    | @broken bytes _ hstopped hwhy =>
        rw [Nat.zero_add, Stopped, List.nil_append] at hstopped
        rw [hstopped]
        refine ⟨rfl, fun hok => ?_, fun _ _ => hwhy.imp_right fun hnot => ?_⟩
        · cases hok
        · exact hnot _ rfl
  · have hgroups := readGroups_spec hbeginning hfuel hread
    obtain ⟨rfl, rfl, rfl⟩ := yields_modify_iff.mp hfinish
    rw [List.append_nil]
    generalize hlast : middle.tally = last at hgroups ⊢
    cases hgroups with
    | @complete bytes hstopped hpayload hsettles =>
        rw [Nat.zero_add, Stopped, List.nil_append] at hstopped
        rw [hstopped]
        refine ⟨rfl, fun _ => ⟨hpayload, hsettles, rfl⟩, fun _ hfault => ?_⟩
        cases hfault

/-- A whole answer leaves in every slot the outcome of its first row, however its rows are packed into
groups and its bytes are cut into frames. Of the order of the rows only the order among those of one
slot counts. -/
theorem run_of_whole_answer (plan : Plan) (slots : List Slot) (hblank : ∀ slot ∈ slots, slot.Blank)
    {rows : List AnswerRow} (hrows : ∀ row ∈ rows, (plan.target? slots.length row).isSome)
    {bytes : Bytes} (hbytes : Answers bytes rows) {stream : FrameStream}
    (hframes : Carry stream.arrivals bytes) (limits : Limits) (reporter : Fault.Reporter)
    (surroundings : Surroundings) (hprompt : surroundings.Prompt) (past : History) :
    let reader : FrameReader := { stream, limits, reporter }
    let ran := (((run plan).run.run ⟨reader, { slots }⟩).runIn surroundings past).1
    ran.1 = .ok () ∧ ran.2.tally.slots = firstRowWins plan slots rows ∧
      ∀ rows' : List AnswerRow,
        (∀ index, rows.filter (fun row => plan.target? slots.length row == some index) =
          rows'.filter fun row => plan.target? slots.length row == some index) →
        ran.2.tally.slots = firstRowWins plan slots rows' := by
  intro reader ran
  obtain ⟨history, hevents, hends⟩ :=
    ends_runIn_prompt surroundings hprompt ((run plan).run.run ⟨reader, { slots }⟩) past
  have hran : Yields (run plan) ⟨reader, { slots }⟩ history ran.1 ran.2 := hends
  obtain ⟨hslots, hok, herror⟩ := run_spec hran
  obtain ⟨hheld, hwhole⟩ := hbytes.harvest_eq
  have hplaced := Tally.placeAll_blank plan hblank rows
  have hsettles : Settles plan { slots } (payload stream.arrivals) := by
    rw [hframes.payload_eq, Settles, hheld]
    exact ⟨hplaced.2.mpr hrows, hwhole⟩
  have hresult : ran.1 = .ok () := by
    rcases houtcome : ran.1 with fault | ⟨⟨⟩⟩
    · rcases herror fault houtcome with (hlast | ⟨event, hmem, hlate⟩) | hnot
      · rw [hframes.reachesLast_eq] at hlast
        cases hlast
      · exact absurd (hevents event hmem) hlate
      · exact absurd hsettles hnot
    · rfl
  have haddressed : addressed plan slots.length rows = rows :=
    List.takeWhile_eq_self_iff.mpr hrows
  have hfinal : ran.2.tally.slots = firstRowWins plan slots rows := by
    rw [hslots, ← (hok hresult).1, hframes.payload_eq, answeredBy, hheld, hplaced.1, haddressed]
  refine ⟨hresult, hfinal, fun rows' hsame => ?_⟩
  rw [hfinal, firstRowWins_eq_of_filter hsame]

/-! ### A small answer

Its rows answer the slots in another order than the plan's positions have, one slot is answered twice, one
group is empty, one is compressed, and bytes follow the row after the last. -/

/-- What a row without key and bins is read as. -/
def bareAnswer (index code generation info3 : UInt8) : AnswerRow :=
  ({ length := 22, info1 := 0, info2 := 0, info3, code, generation := generation.toUInt32,
     expiration := 0, index := index.toUInt32, fieldCount := 0, opCount := 0 },
    { generation := generation.toUInt32, expiration := 0 })

/-- A plain group with the row of a timeout, compressed. -/
def deflatedRow : Bytes :=
  [120, 1, 1, 30, 0, 225, 255, 2, 3, 0, 0, 0, 0, 0, 22, 22, 0, 0, 0, 0, 9, 0, 0, 0, 0, 0, 0, 0, 0, 0,
    0, 0, 1, 0, 0, 0, 0, 5, 45, 0, 60]

def deflatedGroup (body stream : Bytes) : Bytes :=
  Group.Header.encode ⟨Group.version, Group.compressedType, Group.headerLength + stream.length⟩
    ++ (BigEndian.encode Group.headerLength (Group.headerLength + body.length) ++ stream)

def smallAnswer : Bytes :=
  Group.plain (bareRow 0 0 7 0) ++ (Group.plain [] ++
    (deflatedGroup (bareRow 1 9 0 0) deflatedRow ++
      (Group.plain (bareRow 0 2 0 0 ++ (bareRow 0 0 0 1 ++ [1, 2])) ++ [9])))

def smallRows : List AnswerRow :=
  [bareAnswer 0 0 7 0, bareAnswer 1 9 0 0, bareAnswer 0 2 0 0]

def smallFrames : List Arrival :=
  [⟨some 0, .ok { payload := smallAnswer.take 5, hasNext := true }⟩,
    ⟨some 0, .ok { hasNext := true }⟩,
    ⟨none, .ok { payload := smallAnswer.drop 5 }⟩]

def smallSlots : List Slot :=
  [Slot.write {} [], Slot.read {} none]

theorem packs_deflatedGroup {body stream : Bytes} (hbody : body.length ≤ Group.maxSize)
    (hstream : Group.headerLength + stream.length ≤ Group.maxSize)
    (hinflate : Zlib.inflate stream = some (Group.plain body)) :
    Group.Packs (deflatedGroup body stream) body :=
  .compressed Group.version Group.version hbody hstream hinflate

theorem answers_smallAnswer : Answers smallAnswer smallRows := by
  have hfirst : Spells Tally.readRow (bareRow 0 0 7 0) (some (bareAnswer 0 0 7 0)) := rfl
  have hlate : Spells Tally.readRow (bareRow 1 9 0 0) (some (bareAnswer 1 9 0 0)) := rfl
  have hagain : Spells Tally.readRow (bareRow 0 2 0 0) (some (bareAnswer 0 2 0 0)) := rfl
  have hmark : Spells Tally.readRow (bareRow 0 0 0 1) none := rfl
  have hinflate : Zlib.inflate deflatedRow = some (Group.plain (bareRow 1 9 0 0)) := by
    decide +kernel
  refine .group (Group.packs_plain (by decide)) hfirst.single ?_
  refine .group (Group.packs_plain (by decide)) .nil ?_
  refine .group (packs_deflatedGroup (by decide) (by decide) hinflate) hlate.single ?_
  exact .last (Group.packs_plain (by decide)) hagain.single hmark

theorem whole_small_answer :
    let reader : FrameReader := { stream := { arrivals := smallFrames } }
    let ran := (((run ⟨[1, 0]⟩).run.run ⟨reader, { slots := smallSlots }⟩).runIn
      (fun _ => Flow.calmAnswer) []).1
    ran.1 = .ok () ∧
      ran.2.tally.slots.map (fun slot => (slot.code, slot.inDoubt, slot.record.map (·.generation))) =
        [(9, true, none), (0, false, some 7)] := by
  have hframes : Carry (FrameStream.mk smallFrames false none).arrivals smallAnswer := by
    have hcut : smallAnswer.take 5 ++ ([] ++ smallAnswer.drop 5) = smallAnswer := by
      rw [List.nil_append, List.take_append_drop]
    rw [← hcut]
    exact .frame rfl rfl (.frame rfl rfl (.last rfl rfl))
  have hblank : ∀ slot ∈ smallSlots, slot.Blank := by
    simp only [smallSlots, List.forall_mem_cons]
    exact ⟨⟨rfl, rfl, rfl⟩, ⟨rfl, rfl, rfl⟩, nofun⟩
  obtain ⟨hok, hslots, _⟩ := run_of_whole_answer ⟨[1, 0]⟩ smallSlots hblank (by decide)
    answers_smallAnswer hframes {} {} (fun _ => Flow.calmAnswer) (fun _ _ _ => rfl) []
  refine ⟨hok, ?_⟩
  rw [hslots]
  rfl

end Reassembly
end RecordGateway.Batch
