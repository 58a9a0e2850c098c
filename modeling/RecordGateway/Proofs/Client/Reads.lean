import RecordGateway.Proofs.Client.Batch
import RecordGateway.Proofs.Client.Replies

/-!
Reading one record alone and in a batch. A command and a slot each decide for themselves what a row
means. The two agree on every code but success, if the command takes a record that was filtered out for a
fault (`Slot.result_of_failed_row`). A row that reports success is a record for the slot whatever its
bins are (`Slot.result_of_ok_row`), while the command takes a bin with the name of `Udf.failureBin` for
the report of a script, also where no script has run.
-/

namespace RecordGateway

open RecordGateway.Flow

variable {header : Row.Header} {record : Record}

/-! ### One row -/

theorem Udf.isSome_failure? (record : Record) :
    (Udf.failure? record).isSome = (record.get? Udf.failureBin).isSome := by
  rw [Udf.failure?, Option.isSome_map]

/-- A batch reads the same row from bytes as a command does, unless it is the row after the last. -/
theorem Batch.Tally.outcome_readRow {bytes : Bytes}
    (hread : Row.readAnonymous.outcome bytes = .ok (header, record)) (hopen : header.isLast = false) :
    Tally.readRow.outcome bytes = .ok (some (header, record)) := by
  obtain ⟨final, hrun⟩ : ∃ final, Row.readAnonymous.run.run { rest := bytes } =
      (.ok (header, record), final) := ⟨_, Prod.ext hread rfl⟩
  exact congrArg Prod.fst (run_readRow_of_anonymous hrun hopen)

/-- A command takes a row that reports success for a failure, if a bin looks like the report of one. -/
theorem Row.resolve_of_reported {fault : Fault} (strictness : Row.Strictness)
    (hok : header.resultCode = .ok) (hreport : Udf.failure? record = some fault) :
    Row.resolve header record strictness = .error fault := by
  rw [Row.resolve, if_pos hok, hreport]

/-- A reading slot takes every row that reports success for a record. -/
theorem Batch.Slot.result_of_ok_row (key : Key) (bins : Option (List String))
    (hok : header.resultCode = .ok) :
    ((Slot.read key bins).answer header record).1.result = .ok (some record) := by
  rw [Slot.answer, if_pos hok]
  rfl

/-- A slot with the code of a fault that is neither the absence of a record nor that of a script reports
the code. -/
theorem Batch.Slot.result_of_code {slot : Slot} (hok : slot.code ≠ .ok)
    (hmissing : slot.code ≠ .keyNotFound) (hscript : slot.code ≠ .udfBadResponse) :
    slot.result = .error { Fault.ofCode slot.code with inDoubt := slot.inDoubt } := by
  rw [Slot.result, Slot.fault?, if_neg hok, if_neg fun h => hmissing h.1, if_neg hscript]

/-- A slot that keeps the record of a failed script reports what the script has left in it. -/
theorem Batch.Slot.result_of_report {slot : Slot} {fault : Fault} (hscript : slot.code = .udfBadResponse)
    (hrecord : slot.record = some record) (hreport : Udf.failure? record = some fault) :
    slot.result = .error { fault with inDoubt := slot.inDoubt } := by
  have hother : ¬ (ResultCode.udfBadResponse = .keyNotFound ∧ (!slot.hasWrite) = true) :=
    fun h => absurd h.1 (by decide)
  rw [Slot.result, Slot.fault?, hscript, if_neg (by decide), if_neg hother, if_pos rfl, hrecord,
    Option.bind_eq_bind, Option.bind_some, hreport]
  rfl

/-- A reading slot makes of every other row what a strict reader makes of it. -/
theorem Batch.Slot.result_of_failed_row (key : Key) (bins : Option (List String))
    (hfailed : header.resultCode ≠ .ok) :
    ((Slot.read key bins).answer header record).1.result =
      Row.resolve header record { filteredOutFails := true } := by
  rw [Slot.answer, Row.resolve]
  generalize header.resultCode = code at hfailed ⊢
  simp only [if_neg hfailed]
  by_cases hmissing : code = .keyNotFound
  · subst hmissing
    rfl
  have hpresent : ∀ {p : Prop}, ¬ (code = .keyNotFound ∧ p) := fun h => hmissing h.1
  have hstrict : ¬ (code = .filteredOut ∧ (!true) = true) := fun h => absurd h.2 (by decide)
  rw [if_neg hpresent, if_neg hpresent, if_neg hstrict, ← Udf.isSome_failure?]
  by_cases hscript : code = .udfBadResponse
  · subst hscript
    rw [if_pos rfl]
    cases hreport : Udf.failure? record with
    | none => rfl
    | some fault =>
        have hsure : fault.inDoubt = false := @Row.Reports.inDoubt_eq header record fault (.inr hreport)
        rw [if_pos ⟨rfl, rfl⟩]
        refine (result_of_report rfl rfl hreport).trans (congrArg Except.error ?_)
        exact congrArg (fun inDoubt => { fault with inDoubt }) hsure.symm
  · rw [if_neg hscript, if_neg fun h => hscript h.1]
    exact result_of_code hfailed hmissing hscript

namespace Client

open Batch

variable {client : Client} {policy : Policy} {history : History}

/-! ### Calls -/

theorem readReply_of_row {command : Command} {response : Envelope.Response}
    (hrow : rowIn? response = some (header, record)) :
    client.readReply command response = command.interpret header record := by
  rcases readReply_cases client command response with ⟨_, _, hgiven, hreply⟩ | ⟨hnone, _⟩
  · obtain ⟨rfl, rfl⟩ := Prod.mk.inj (Option.some.inj (hrow.symm.trans hgiven))
    exact hreply
  · rw [hrow] at hnone
    cases hnone

/-- Reading many records gives for each what the first row that has arrived for it makes of its slot. -/
theorem getMany_spec {keys : List Key} {bins : Option (List String)}
    {results : List (Except Fault (Option Record))}
    (h : (client.getMany policy keys bins).run.Ends history (.ok results)) :
    results = keys.mapIdx fun index key =>
      ((Slot.read key bins).after (arrivedFor keys.length history index)).result := by
  rw [getMany, ExceptT.run_bind] at h
  obtain ⟨front, back, answered, rfl, hanswered, hback⟩ := ends_bind_iff.mp h
  cases answered with
  | error failure =>
      obtain ⟨-, hresults⟩ := ends_pure_iff.mp hback
      cases hresults
  | ok slots =>
      obtain ⟨rfl, hresults⟩ := ends_pure_iff.mp hback
      obtain rfl := Except.ok.inj hresults
      obtain ⟨batch, last, ⟨outcome, made⟩, rfl, hbatch, hlast⟩ := ends_bind_iff.mp hanswered
      cases outcome with
      | error fault =>
          obtain ⟨-, hslots⟩ := ends_pure_iff.mp hlast
          cases hslots
      | ok verdict =>
          obtain ⟨rfl, hslots⟩ := ends_pure_iff.mp hlast
          obtain rfl := Except.ok.inj hslots
          rcases batch_spec hbatch with ⟨_, _, rfl, _⟩ | ⟨_, hfault, _⟩
          · refine List.ext_getElem? fun index => ?_
            rw [List.append_nil, List.append_nil, List.getElem?_map, List.getElem?_mapIdx,
              List.getElem?_map, List.getElem?_mapIdx, List.length_map, Option.map_map, Option.map_map]
            rfl
          · cases hfault

/-- A strict read alone and a read in a batch of one make the same of a row: the same record, its absence
or the same fault, with one exception. A row that reports success, and has a bin with the name under which
scripts report their failures, is a record in the batch, as it should be; alone it is a fault. -/
theorem read_alone_eq_in_batch_iff (client : Client) (policy batchPolicy : Policy) (key : Key)
    (bins : Option (List String)) (header : Row.Header) (record : Record)
    (hstrict : policy.failOnFilteredOut = true) :
    let command : Command := { key, policy, action := .get bins }
    let alone := command.interpret header record
    let inBatch := ((Slot.read key bins).answer header record).1.result
    (alone = .record <$> inBatch ↔
      ¬ (header.resultCode = .ok ∧ (record.get? Udf.failureBin).isSome = true)) ∧
    (header.resultCode = .ok → inBatch = .ok (some record) ∧
      ∀ fault, Udf.failure? record = some fault → alone = .error fault) ∧
    (∀ response, rowIn? response = some (header, record) →
      client.readReply command response = alone) ∧
    (∀ bytes, Row.readAnonymous.outcome bytes = .ok (header, record) → header.isLast = false →
      Tally.readRow.outcome bytes = .ok (some (header, record))) ∧
    ∀ history results, (client.getMany batchPolicy [key] bins).run.Ends history (.ok results) →
      arrivedFor 1 history 0 = some (header, record) → results = [inBatch] := by
  intro command alone inBatch
  have halone : alone = .record <$> Row.resolve header record { filteredOutFails := true } := by
    rw [← hstrict]
    rfl
  refine ⟨?_, fun hok => ⟨Slot.result_of_ok_row key bins hok, fun fault hfault => ?_⟩,
    fun response hrow => readReply_of_row hrow, fun bytes => Tally.outcome_readRow,
    fun history results hends harrived => ?_⟩
  · by_cases hok : header.resultCode = .ok
    · have hinBatch : inBatch = .ok (some record) := Slot.result_of_ok_row key bins hok
      rw [halone, hinBatch, Row.resolve, if_pos hok, ← Udf.isSome_failure?]
      cases hreport : Udf.failure? record with
      | none => simp
      | some fault => simp [hok]
    · have hinBatch : inBatch = Row.resolve header record { filteredOutFails := true } :=
        Slot.result_of_failed_row key bins hok
      rw [halone, hinBatch]
      simp [hok]
  · rw [halone, Row.resolve_of_reported _ hok hfault]
    rfl
  · rw [getMany_spec hends]
    have hafter : (Slot.read key bins).after (arrivedFor 1 history 0) =
        ((Slot.read key bins).answer header record).1 := by
      rw [harrived]
      exact (Slot.answer_of_blank (Slot.read key bins).blank_reset (header, record)).symm
    exact congrArg (fun slot => [Slot.result slot]) hafter

/-- The answer that consists of one row. -/
def oneRow (row : Bytes) : Envelope.Response where
  payload := Group.plain row

def bareFrames : List Arrival :=
  [⟨some 0, .ok (oneRow (Row.bareRow 0 0 7 0))⟩]

theorem read_bare_row :
    let record : Record := { generation := 7, expiration := 0 }
    bareClient.readReply { key := {}, policy := { failOnFilteredOut := true }, action := .get none }
        (oneRow (Row.bareRow 0 0 7 0)) = .ok (.record (some record)) ∧
      ∃ history, (bareClient.getMany {} [{}] none).run.Ends history (.ok [.ok (some record)]) := by
  intro record
  obtain ⟨hagree, hok, halone, -, hinBatch⟩ := read_alone_eq_in_batch_iff bareClient
    { failOnFilteredOut := true } {} {} none ⟨22, 0, 0, 0, 0, 7, 0, 0, 0, 0⟩ record rfl
  constructor
  · have hrow : rowIn? (oneRow (Row.bareRow 0 0 7 0)) =
        some (⟨22, 0, 0, 0, 0, 7, 0, 0, 0, 0⟩, record) := rfl
    have hnoReport : (record.get? Udf.failureBin).isSome = false := rfl
    rw [halone _ hrow, hagree.mpr (by simp [hnoReport]), (hok rfl).1]
    rfl
  · obtain ⟨history, hhistory, hends⟩ :=
      ends_runIn (answering bareFrames) (bareClient.getMany {} [{}] none).run []
    have hsucceeds :
        ((bareClient.getMany {} [{}] none).run.runIn (answering bareFrames) []).1.isOk = true := by
      decide +kernel
    have hbytes : broughtBytes history = Group.plain (Row.bareRow 0 0 7 0) := by
      rw [← List.nil_append history, ← hhistory]
      decide +kernel
    have harrived : arrivedFor 1 history 0 = some (⟨22, 0, 0, 0, 0, 7, 0, 0, 0, 0⟩, record) := by
      rw [arrivedFor, arrivedRows, hbytes]
      rfl
    refine ⟨history, ?_⟩
    rcases hran : ((bareClient.getMany {} [{}] none).run.runIn (answering bareFrames) []).1 with
      failure | results
    · rw [hran] at hsucceeds
      cases hsucceeds
    · rw [hran] at hends
      have hresults := hinBatch history results hends harrived
      rw [(hok rfl).1] at hresults
      rwa [hresults] at hends

/-- A row that reports success and has a bin `FAILURE` with the text `bad`. -/
def reportNamedRow : Bytes :=
  [22, 0, 0, 0, 0, 0, 0, 0, 0, 7, 0, 0, 0, 0, 0, 0, 0, 0, 0, 0, 0, 1] ++
    [0, 0, 0, 14, 1, 3, 0, 7, 0x46, 0x41, 0x49, 0x4c, 0x55, 0x52, 0x45, 0x62, 0x61, 0x64]

/-- A bin of a user is lost when the record is read alone: the reply is the fault of a script that never
ran, and the same row in a batch is the record. -/
theorem read_alone_loses_record :
    ¬ ∀ (client : Client) (policy : Policy) (key : Key) (bins : Option (List String))
        (header : Row.Header) (record : Record) (response : Envelope.Response),
      policy.failOnFilteredOut = true → rowIn? response = some (header, record) →
      client.readReply { key, policy, action := .get bins } response =
        .record <$> ((Slot.read key bins).answer header record).1.result := by
  intro hall
  have hread : ((rowIn? (oneRow reportNamedRow)).any fun row =>
      row.1.resultCode == .ok && (row.2.get? Udf.failureBin).isSome) = true := by
    decide +kernel
  rcases hrow : rowIn? (oneRow reportNamedRow) with _ | ⟨header, record⟩
  · rw [hrow] at hread
    cases hread
  · rw [hrow, Option.any_some, Bool.and_eq_true, beq_iff_eq, ← Udf.isSome_failure?] at hread
    obtain ⟨fault, hreport⟩ := Option.isSome_iff_exists.mp hread.2
    have hsame := hall bareClient { failOnFilteredOut := true } {} none _ _ _ rfl hrow
    rw [readReply_of_row hrow, Slot.result_of_ok_row _ _ hread.1] at hsame
    have halone : Command.interpret ⟨{}, { failOnFilteredOut := true }, .get none⟩ header record =
        .record <$> Except.error fault :=
      congrArg (Functor.map _) (Row.resolve_of_reported _ hread.1 hreport)
    cases halone.symm.trans hsame

end Client
end RecordGateway
