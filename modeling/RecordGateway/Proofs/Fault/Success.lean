import RecordGateway.Batch.Slot
import RecordGateway.Command
import RecordGateway.Proofs.Row.Reports

/-!
Failures that carry the code of success. The code of a failure is that of its row, unless a script reports it
and gives a code of its own: then it is whatever number stands in the report (`Udf.code_of_failure?`). So a
failure has the code of success exactly if a script reports it with that number, whether a row is looked at by
itself, answers a command, or answers a slot of a batch (`success_code_iff`).
-/

namespace RecordGateway

variable {α β : Type} {header : Row.Header} {record : Record} {fault : Fault}

/-- The outcome is a failure, and its code is that of success. -/
def FailsWithSuccess (outcome : Except Fault α) : Prop :=
  ∃ fault, outcome = .error fault ∧ fault.code = .ok

theorem failsWithSuccess_error : FailsWithSuccess (.error fault : Except Fault α) ↔ fault.code = .ok := by
  constructor
  · rintro ⟨fault, ⟨⟩, hcode⟩
    exact hcode
  · exact fun hcode => ⟨fault, rfl, hcode⟩

theorem not_failsWithSuccess_ok (value : α) : ¬ FailsWithSuccess (.ok value) := by
  rintro ⟨fault, ⟨⟩, -⟩

/-- What is made of a value says nothing about why there is none. -/
theorem failsWithSuccess_map (f : α → β) (outcome : Except Fault α) :
    FailsWithSuccess (f <$> outcome) ↔ FailsWithSuccess outcome := by
  cases outcome with
  | ok value => exact iff_of_false (not_failsWithSuccess_ok _) (not_failsWithSuccess_ok _)
  | error fault => exact failsWithSuccess_error.trans failsWithSuccess_error.symm

namespace Udf

/-- A script reports in the record that it failed, and the number in its report is that of success. -/
def ReportsSuccess (record : Record) : Prop :=
  ∃ value file line message, record.get? failureBin = some value ∧
    Report (value.asText?.getD value.inspect).toList file line 0 message

theorem readReport_code_eq_ok_iff {text : String} :
    (readReport text).1 = .ok ↔ ∃ file line message, Report text.toList file line 0 message := by
  constructor
  · intro hcode
    rw [readReport] at hcode
    cases hsplit : splitReport? text.toList with
    | none =>
        rw [hsplit] at hcode
        cases hcode
    | some found =>
        obtain ⟨file, line, code, message, hreport, hvalue, -⟩ := splitReport?_eq_some_iff.mp hsplit
        rw [hsplit] at hcode
        have hzero : code.toInt = (0 : Int32).toInt := hvalue.symm.trans hcode
        rw [Int32.toInt_inj.mp hzero] at hreport
        exact ⟨file, line, message, hreport⟩
  · rintro ⟨file, line, message, hreport⟩
    rw [readReport_of_report hreport (trimsTo_trimBlanks message)]
    rfl

theorem code_of_failure? (h : failure? record = some fault) :
    fault.code = .ok ↔ ReportsSuccess record := by
  obtain ⟨value, hvalue, rfl⟩ := Option.map_eq_some_iff.mp h
  refine readReport_code_eq_ok_iff.trans ⟨?_, ?_⟩
  · rintro ⟨file, line, message, hreport⟩
    exact ⟨value, file, line, message, hvalue, hreport⟩
  · rintro ⟨found, file, line, message, hfound, hreport⟩
    obtain rfl := Option.some.inj (hfound.symm.trans hvalue)
    exact ⟨file, line, message, hreport⟩

theorem not_reportsSuccess (h : failure? record = none) : ¬ ReportsSuccess record := by
  rintro ⟨value, file, line, message, hvalue, -⟩
  rw [failure?, hvalue] at h
  cases h

/-- A record without a report stands for the code of failed scripts, which is not that of success. -/
theorem code_of_getD_failure? :
    ((failure? record).getD (.ofCode .udfBadResponse)).code = .ok ↔ ReportsSuccess record := by
  cases hreport : failure? record with
  | some fault => exact code_of_failure? hreport
  | none => exact iff_of_false (by decide) (not_reportsSuccess hreport)

end Udf

/-! ### Rows and commands -/

theorem Row.failsWithSuccess_resolve (strictness : Row.Strictness) :
    FailsWithSuccess (Row.resolve header record strictness) ↔
      (header.resultCode = .ok ∨ header.resultCode = .udfBadResponse) ∧ Udf.ReportsSuccess record := by
  unfold Row.resolve
  generalize header.resultCode = code
  dsimp only
  split
  · next hok =>
      rw [and_iff_right (.inl hok)]
      split
      · next hreport => exact failsWithSuccess_error.trans (Udf.code_of_failure? hreport)
      · next hnone => exact iff_of_false (not_failsWithSuccess_ok _) (Udf.not_reportsSuccess hnone)
  next hok =>
  rw [or_iff_right hok]
  split
  · next hmissing =>
      obtain ⟨rfl, -⟩ := hmissing
      exact iff_of_false (not_failsWithSuccess_ok _) fun h => absurd h.1 (by decide)
  split
  · next hfiltered =>
      obtain ⟨rfl, -⟩ := hfiltered
      exact iff_of_false (not_failsWithSuccess_ok _) fun h => absurd h.1 (by decide)
  split
  · next hscript =>
      rw [and_iff_right hscript]
      exact failsWithSuccess_error.trans Udf.code_of_getD_failure?
  · next hother =>
      -- No script has run: the fault has the code of the row, which is not that of success.
      exact iff_of_false (fun h => hok (failsWithSuccess_error.mp h)) fun h => hother h.1

theorem Command.not_failsWithSuccess_presence (command : Command) :
    ¬ FailsWithSuccess (command.presence header) := by
  unfold Command.presence
  dsimp only
  split
  · exact not_failsWithSuccess_ok _
  split
  · exact not_failsWithSuccess_ok _
  split
  · exact not_failsWithSuccess_ok _
  · next hok _ _ => exact fun h => hok (failsWithSuccess_error.mp h)

/-- Two actions ask whether there is a record and do not look at it; all others resolve the row. -/
theorem Command.interpret_cases (command : Command) (header : Row.Header) (record : Record) :
    ((command.method = .exists ∨ command.method = .delete) ∧
      command.interpret header record = .flag <$> command.presence header) ∨
    (command.method ≠ .exists ∧ command.method ≠ .delete) ∧
      ∃ output, command.interpret header record =
        output <$> Row.resolve header record command.strictness := by
  obtain ⟨key, policy, action⟩ := command
  cases action with
  | «exists» => exact .inl ⟨.inl rfl, rfl⟩
  | delete => exact .inl ⟨.inr rfl, rfl⟩
  | get bins => exact .inr ⟨⟨nofun, nofun⟩, _, rfl⟩
  | getHeader => exact .inr ⟨⟨nofun, nofun⟩, _, rfl⟩
  | operate operations => exact .inr ⟨⟨nofun, nofun⟩, _, rfl⟩
  | write kind bins =>
      refine .inr ⟨⟨nofun, nofun⟩, fun _ => .done, ?_⟩
      unfold interpret
      cases Row.resolve header record _ <;> rfl
  | touch =>
      refine .inr ⟨⟨nofun, nofun⟩, fun _ => .done, ?_⟩
      unfold interpret
      cases Row.resolve header record _ <;> rfl
  | execute package function arguments =>
      refine .inr ⟨⟨nofun, nofun⟩, _, (map_eq_pure_bind _ _).symm⟩

theorem Command.failsWithSuccess_interpret (command : Command) :
    FailsWithSuccess (command.interpret header record) ↔
      (command.method ≠ .exists ∧ command.method ≠ .delete) ∧
        FailsWithSuccess (Row.resolve header record command.strictness) := by
  rcases command.interpret_cases header record with
    ⟨hmethod, hpresence⟩ | ⟨hmethod, output, hresolve⟩
  · rw [hpresence, failsWithSuccess_map]
    exact iff_of_false command.not_failsWithSuccess_presence fun h => hmethod.elim h.1.1 h.1.2
  · rw [hresolve, failsWithSuccess_map, and_iff_right hmethod]

/-! ### Slots -/

theorem Batch.Slot.fault?_code_eq_ok_iff (slot : Batch.Slot) :
    (∃ fault, slot.fault? = some fault ∧ fault.code = .ok) ↔
      slot.code = .udfBadResponse ∧ ∃ record, slot.record = some record ∧ Udf.ReportsSuccess record := by
  obtain ⟨key, action, record, code, inDoubt⟩ := slot
  unfold fault?
  dsimp only
  split
  · next hok => exact iff_of_false nofun fun h => absurd (hok.symm.trans h.1) (by decide)
  next hok =>
  split
  · next hmissing =>
      exact iff_of_false nofun fun h => absurd (hmissing.1.symm.trans h.1) (by decide)
  split
  · next hscript =>
      rw [and_iff_right hscript]
      simp only [Option.some.injEq, exists_eq_left']
      cases record with
      | none => exact iff_of_false (by decide) nofun
      | some record =>
          simp only [Option.bind_eq_bind, Option.bind_some, Option.some.injEq, exists_eq_left']
          exact Udf.code_of_getD_failure?
  · next hother =>
      refine iff_of_false ?_ fun h => hother h.1
      rintro ⟨fault, hfault, hcode⟩
      obtain rfl := Option.some.inj hfault
      exact hok hcode

/-- A failure has the code of success exactly if a script reports it, with the number of success in the text
that it leaves. It has that code then where a row is resolved whose code makes the reader look for a report,
for each command that resolves the row, and for each slot that keeps the record of the failed script. -/
theorem success_code_iff (header : Row.Header) (record : Record) (strictness : Row.Strictness)
    (command : Command) (slot : Batch.Slot) :
    ((∃ fault, Row.resolve header record strictness = .error fault ∧ fault.code = .ok) ↔
      (header.resultCode = .ok ∨ header.resultCode = .udfBadResponse) ∧ Udf.ReportsSuccess record) ∧
    ((∃ fault, command.interpret header record = .error fault ∧ fault.code = .ok) ↔
      (command.method ≠ .exists ∧ command.method ≠ .delete) ∧
        (header.resultCode = .ok ∨ header.resultCode = .udfBadResponse) ∧ Udf.ReportsSuccess record) ∧
    ((∃ fault, slot.fault? = some fault ∧ fault.code = .ok) ↔
      slot.code = .udfBadResponse ∧
        ∃ record, slot.record = some record ∧ Udf.ReportsSuccess record) := by
  refine ⟨Row.failsWithSuccess_resolve strictness, ?_, slot.fault?_code_eq_ok_iff⟩
  rw [← Row.failsWithSuccess_resolve command.strictness]
  exact command.failsWithSuccess_interpret

/-- What a script leaves that reports its failure with the number of success. -/
def zeroReport : Record where
  bins := [(Udf.failureBin, .string "file:line:0:custom message")]
  generation := 7
  expiration := 0

/-- The header of the row with that record. -/
def zeroReportHeader : Row.Header where
  length := 22
  info1 := 0
  info2 := 0
  info3 := 0
  code := 100
  generation := 7
  expiration := 0
  index := 0
  fieldCount := 0
  opCount := 1

/-- The slot that the row answers. -/
def zeroReportSlot : Batch.Slot :=
  ((Batch.Slot.udf {} "package" "function" []).answer zeroReportHeader zeroReport).1

theorem reportsSuccess_zeroReport : Udf.ReportsSuccess zeroReport := by
  refine ⟨_, "file".toList, "line".toList, "custom message".toList, rfl, by decide, by decide, ?_⟩
  exact ⟨['0'], ['0'], by decide, trimBlanks_eq_iff.mp rfl, .plain (n := 0) ⟨0, by decide⟩, by decide⟩

theorem failures_with_success :
    (¬ ∀ (header : Row.Header) (record : Record) (strictness : Row.Strictness) (fault : Fault),
      Row.resolve header record strictness = .error fault → fault.code ≠ .ok) ∧
    (¬ ∀ (command : Command) (header : Row.Header) (record : Record) (fault : Fault),
      command.interpret header record = .error fault → fault.code ≠ .ok) ∧
    ¬ ∀ (slot : Batch.Slot) (fault : Fault), slot.fault? = some fault → fault.code ≠ .ok := by
  have hresolve (strictness : Row.Strictness) :
      FailsWithSuccess (Row.resolve zeroReportHeader zeroReport strictness) :=
    (Row.failsWithSuccess_resolve strictness).mpr ⟨.inr rfl, reportsSuccess_zeroReport⟩
  refine ⟨fun hall => ?_, fun hall => ?_, fun hall => ?_⟩
  · obtain ⟨fault, hfails, hcode⟩ := hresolve {}
    exact hall _ _ _ _ hfails hcode
  · obtain ⟨fault, hfails, hcode⟩ :=
      (Command.failsWithSuccess_interpret ⟨{}, {}, .get none⟩).mpr ⟨⟨nofun, nofun⟩, hresolve _⟩
    exact hall _ _ _ _ hfails hcode
  · obtain ⟨fault, hfails, hcode⟩ :=
      zeroReportSlot.fault?_code_eq_ok_iff.mpr ⟨rfl, _, rfl, reportsSuccess_zeroReport⟩
    exact hall _ _ hfails hcode

end RecordGateway
