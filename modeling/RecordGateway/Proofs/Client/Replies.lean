import RecordGateway.Proofs.Client.Execution
import RecordGateway.Proofs.FrameReader.Failures

/-!
What the reply to a command settles. A sound reply begins with a row (`rowIn?`), and the command makes of
it what it can; every other reply is a fault of its own (`readReply_cases`). The two differ in doubt: the
client and the gateway know that a write may have been applied when time ran out, the row does not say
so, and nothing adds it. So a timeout of a write is in doubt unless the database reports it in a row and
no earlier attempt has left doubt (`timeout_sure_iff`).
-/

namespace RecordGateway

open RecordGateway.Flow

/-- The row in a response, if the response is sound and its first group begins with one. -/
def rowIn? (response : Envelope.Response) : Option (Row.Header × Record) :=
  if response.status = 0 then
    (Group.first? response.payload).bind fun group => (Row.readAnonymous.outcome group.1).toOption
  else none

/-- The row that an exchange brings. -/
def Exchange.row? (exchange : Exchange) : Option (Row.Header × Record) :=
  match exchange.waited, exchange.reply.value with
  | .arrived, .ok response => rowIn? response
  | _, _ => none

/-! ### Rows -/

/-- A row reports a fault: that of its result code, or what a script has left in it. -/
def Row.Reports (header : Row.Header) (record : Record) (fault : Fault) : Prop :=
  fault = .ofCode header.resultCode ∨ Udf.failure? record = some fault

theorem Fault.kind_ofCode_eq_timeout_iff {code : ResultCode} :
    (Fault.ofCode code).kind = .timeout ↔ code = .timeout := by
  unfold ofCode Kind.ofCode
  grind

theorem Fault.inDoubt_of_timeout_ofStatus {reporter : Fault.Reporter} {status : Status}
    (hkind : (reporter.ofStatus status true).kind = .timeout) :
    (reporter.ofStatus status true).inDoubt = true := by
  unfold Reporter.ofStatus at hkind ⊢
  cases hcode : status.code <;> rw [hcode] at hkind <;> first | rfl | cases hkind

theorem Fault.inDoubt_of_timeout_ofResponse {status : ResultCode} {inDoubt : Bool}
    (hkind : (Fault.ofResponse status inDoubt true).kind = .timeout) :
    (Fault.ofResponse status inDoubt true).inDoubt = true := by
  unfold ofResponse at hkind ⊢
  by_cases hfull : status = .gatewayQueueFull
  · rw [if_pos hfull] at hkind
    cases hkind
  · rw [if_neg hfull] at hkind ⊢
    by_cases htimeout : status = .timeout
    · rw [if_pos htimeout]
      exact Bool.or_true inDoubt
    · rw [if_neg htimeout] at hkind
      exact absurd (Fault.kind_ofCode_eq_timeout_iff.mp hkind) htimeout

theorem Row.Reports.inDoubt_eq {header : Row.Header} {record : Record} {fault : Fault}
    (h : Row.Reports header record fault) : fault.inDoubt = false := by
  rcases h with rfl | h
  · rfl
  · obtain ⟨value, -, rfl⟩ := Option.map_eq_some_iff.mp h
    rfl

/-- A script has left a report in the row, and the code of the row makes whoever reads it look for one. -/
structure Row.Scripted (header : Row.Header) (record : Record) (report : Fault) : Prop where
  code_eq : header.resultCode = .ok ∨ header.resultCode = .udfBadResponse
  failure?_eq : Udf.failure? record = some report

theorem Row.failsAs_resolve (header : Row.Header) (record : Record) (strictness : Row.Strictness) :
    FailsAs (fun fault => fault = .ofCode header.resultCode ∨ Row.Scripted header record fault)
      (Row.resolve header record strictness) := by
  unfold Row.resolve
  dsimp only
  split
  · next hok =>
      split
      · next hreport => exact failsAs_error (.inr ⟨.inl hok, hreport⟩)
      · exact failsAs_ok _
  split
  · exact failsAs_ok _
  split
  · exact failsAs_ok _
  split
  · next hcode =>
      refine failsAs_error ?_
      cases hreport : Udf.failure? record with
      | none => exact .inl (by rw [hcode]; rfl)
      | some fault => exact .inr ⟨.inr hcode, hreport⟩
  · exact failsAs_error (.inl rfl)

/-- A command fails with the code of a row, or with what a script has left in it. -/
theorem Command.failsAs_interpret_row (command : Command) (header : Row.Header) (record : Record) :
    FailsAs (fun fault => fault = .ofCode header.resultCode ∨ Row.Scripted header record fault)
      (command.interpret header record) := by
  have hpresence : FailsAs
      (fun fault => fault = .ofCode header.resultCode ∨ Row.Scripted header record fault)
      (command.presence header) := by
    unfold presence
    dsimp only
    split
    · exact failsAs_ok _
    split
    · exact failsAs_ok _
    split
    · exact failsAs_ok _
    · exact failsAs_error (.inl rfl)
  have hresolve := Row.failsAs_resolve header record command.strictness
  unfold interpret
  split
  · exact hpresence.map _
  · exact hpresence.map _
  · exact (hresolve.map _).bind fun _ => failsAs_ok _
  · exact (hresolve.map _).bind fun _ => failsAs_ok _
  · exact hresolve.bind fun _ => failsAs_ok _
  · exact hresolve.map _
  · exact hresolve.map _
  · exact hresolve.map _

/-- What a command makes of a row is what the row reports, and adds no doubt to it. -/
theorem Command.failsAs_interpret (command : Command) (header : Row.Header) (record : Record) :
    FailsAs (Row.Reports header record) (command.interpret header record) :=
  (command.failsAs_interpret_row header record).mono fun _ hfault =>
    hfault.imp_right Row.Scripted.failure?_eq

namespace Client

variable {client : Client} {command : Command} {payload : Bytes} {history : History}
  {result : Except Fault Command.Output} {response : Envelope.Response} {exchange : Exchange}
  {fault : Fault}

open FrameReader

/-- A response as the answer that is read of it. -/
abbrev answerIn (client : Client) (command : Command) (response : Envelope.Response) : FrameReader :=
  .ofResponse response { isWrite := command.isWrite } client.reporter

/-- The only frame of the answer that a response is read as. -/
def soleFrame (response : Envelope.Response) : List Arrival :=
  [⟨some 0, .ok { response with hasNext := false }⟩]

theorem payload_soleFrame (hstatus : response.status = 0) :
    FrameReader.payload (soleFrame response) = response.payload := by
  simp [soleFrame, FrameReader.payload, hstatus]

theorem reached_answerIn :
    Reached (soleFrame response) 0 [] (client.answerIn command response) :=
  reached_beginning { arrivals := soleFrame response } _ _

theorem rowIn?_eq_none (hfirst : response.status = 0 → Group.first? response.payload = none) :
    rowIn? response = none := by
  unfold rowIn?
  split
  · next hstatus =>
      rw [hfirst hstatus]
      rfl
  · rfl

/-- The first group of a response, or why there is none. -/
theorem readGroup_answerIn {body : Except Fault (Option Bytes)} {final : FrameReader}
    (hprompt : ∀ event ∈ history, event.Prompt)
    (h : Yields readGroup (client.answerIn command response) history body final) :
    (∃ bytes rest, body = .ok (some bytes) ∧ response.status = 0 ∧
      Group.first? response.payload = some (bytes, rest)) ∨
    rowIn? response = none ∧ (body = .ok none ∨
      ∃ fault, body = .error fault ∧ Failure (client.answerIn command response) fault) := by
  have hfails := (staysInside_readGroup _ _ _ _ (inside_self _) h).2
  cases readGroup_spec reached_answerIn h with
  | finished hfinal hended hnil =>
      refine .inr ⟨rowIn?_eq_none fun hstatus => ?_, .inl rfl⟩
      have hbytes := (hfinal.complete hended).1
      rw [payload_soleFrame hstatus, hfinal.payload_eq, hnil] at hbytes
      rw [hbytes]
      exact Group.first?_of_length_lt (by decide)
  | @group bytes wire _ hfinal hgroup =>
      obtain ⟨more, hmore⟩ := hfinal.payload_prefix
      rw [hfinal.payload_eq, List.nil_append, List.append_assoc] at hmore
      by_cases hstatus : response.status = 0
      · rw [payload_soleFrame hstatus] at hmore
        refine .inl ⟨bytes, final.buffer ++ more, rfl, hstatus, ?_⟩
        rw [← hmore, hgroup]
      · -- A frame with a status of its own brings no bytes, and so no group.
        have hnone : FrameReader.payload (soleFrame response) = [] := by
          simp [soleFrame, FrameReader.payload, hstatus]
        rw [hnone, List.append_eq_nil_iff] at hmore
        have hempty := hgroup []
        rw [hmore.1, Group.first?_of_length_lt (by decide)] at hempty
        cases hempty
  | @failed fault left _ hstopped hleft hwhy =>
      refine .inr ⟨rowIn?_eq_none fun hstatus => ?_, .inr ⟨fault, rfl, hfails fault rfl⟩⟩
      rcases hwhy with (hlast | ⟨event, hmem, hevent⟩) | hrest
      · have hreaches : reachesLast (soleFrame response) = true := by
          simp [soleFrame, reachesLast, hstatus]
        rw [hreaches] at hlast
        cases hlast
      · exact absurd (hprompt event hmem) hevent
      · exact (hrest _ (payload_soleFrame hstatus)).2

/-- A reply is what the command makes of its row; without a row it is a fault, for one of the reasons
for which the reading of an answer fails. -/
theorem readReply_cases (client : Client) (command : Command) (response : Envelope.Response) :
    (∃ header record, rowIn? response = some (header, record) ∧
      client.readReply command response = command.interpret header record) ∨
    rowIn? response = none ∧ ∃ fault, client.readReply command response = .error fault ∧
      Failure (client.answerIn command response) fault := by
  obtain ⟨history, hprompt, hends⟩ :=
    ends_undisturbed (readGroup.run.run (client.answerIn command response))
  rcases hrun : (readGroup.run.run (client.answerIn command response)).undisturbed with
    ⟨body, final⟩
  rw [hrun] at hends
  unfold readReply
  dsimp only
  rw [hrun]
  rcases readGroup_answerIn hprompt hends with
    ⟨bytes, rest, rfl, hstatus, hfirst⟩ | ⟨hrow, rfl | ⟨fault, rfl, hfailure⟩⟩
  · have hrow : rowIn? response = (Row.readAnonymous.outcome bytes).toOption := by
      rw [rowIn?, if_pos hstatus, hfirst]
      rfl
    rw [hrow, show (Except.ok (some bytes) >>= _ : Except Fault Command.Output) =
      Row.readAnonymous.outcome bytes >>= fun row => command.interpret row.1 row.2 from rfl]
    cases hread : Row.readAnonymous.outcome bytes with
    | ok row => exact .inl ⟨row.1, row.2, rfl, rfl⟩
    | error fault =>
        exact .inr ⟨rfl, fault, rfl, .parse (Row.failsAs_readAnonymous.outcome bytes fault hread)⟩
  · exact .inr ⟨hrow, _, rfl, .parse (Fault.isParse_parse _ _)⟩
  · exact .inr ⟨hrow, fault, rfl, hfailure⟩

/-- Why an exchange brings no row. -/
inductive NoRow (exchange : Exchange) (client : Client) (command : Command) : Fault → Prop where
  | cancelled : NoRow exchange client command .callCancelled
  | timedOut : NoRow exchange client command (.deadlineExceeded exchange.limits.isWrite)
  | transport {status : Status} :
      exchange.reply.value = .error status →
      NoRow exchange client command (client.reporter.ofStatus status exchange.limits.isWrite)
  | reply {response : Envelope.Response} {fault : Fault} :
      exchange.reply.value = .ok response → Failure (client.answerIn command response) fault →
      NoRow exchange client command fault

/-- An exchange is what the command makes of the row that it brings, or fails since it brings none. -/
theorem outcome_cases (exchange : Exchange) (client : Client) (command : Command) :
    (∃ header record, exchange.row? = some (header, record) ∧
      exchange.outcome client command = command.interpret header record) ∨
    exchange.row? = none ∧ ∃ fault, exchange.outcome client command = .error fault ∧
      NoRow exchange client command fault := by
  obtain ⟨call, ⟨delay, value⟩, limits, waited⟩ := exchange
  cases waited with
  | cancelled => exact .inr ⟨rfl, _, rfl, .cancelled⟩
  | timedOut => exact .inr ⟨rfl, _, rfl, .timedOut⟩
  | arrived =>
      cases value with
      | error status => exact .inr ⟨rfl, _, rfl, .transport rfl⟩
      | ok response =>
          rcases readReply_cases client command response with
            ⟨header, record, hrow, hreply⟩ | ⟨hrow, fault, hreply, hfailure⟩
          · exact .inl ⟨header, record, hrow, hreply⟩
          · exact .inr ⟨hrow, fault, hreply, .reply rfl hfailure⟩

/-! ### Timeouts of writes -/

/-- Whoever knows that a write was on its way when time ran out calls the timeout in doubt. -/
theorem inDoubt_of_failure {answer : FrameReader} (h : Failure answer fault)
    (hwrite : answer.limits.isWrite = true) (hkind : fault.kind = .timeout) :
    fault.inDoubt = true := by
  cases h with
  | parse hparse =>
      rw [hparse.kind_eq] at hkind
      cases hkind
  | cancelled => cases hkind
  | timedOut => exact hwrite
  | transport =>
      rw [hwrite] at hkind ⊢
      exact Fault.inDoubt_of_timeout_ofStatus hkind
  | frame =>
      rw [hwrite] at hkind ⊢
      exact Fault.inDoubt_of_timeout_ofResponse hkind

/-- A timeout without a row is in doubt. -/
theorem NoRow.inDoubt_of_timeout (h : NoRow exchange client command fault)
    (hlimits : exchange.limits.isWrite = true) (hwrite : command.isWrite = true)
    (hkind : fault.kind = .timeout) : fault.inDoubt = true := by
  cases h with
  | cancelled => cases hkind
  | timedOut => exact hlimits
  | transport =>
      rw [hlimits] at hkind ⊢
      exact Fault.inDoubt_of_timeout_ofStatus hkind
  | reply _ hfailure => exact inDoubt_of_failure hfailure hwrite hkind

/-- An exchange for a write that ends with a timeout leaves no doubt exactly if its row reports the
timeout. -/
theorem sure_iff_reported (hlimits : exchange.limits.isWrite = true) (hwrite : command.isWrite = true)
    (houtcome : exchange.outcome client command = .error fault) (hkind : fault.kind = .timeout) :
    fault.inDoubt = false ↔ ∃ header record, exchange.row? = some (header, record) ∧
      (header.resultCode = .timeout ∨
        ∃ report, Udf.failure? record = some report ∧ report.kind = .timeout) := by
  rcases outcome_cases exchange client command with
    ⟨header, record, hrow, hinterpret⟩ | ⟨hrow, given, hgiven, hnone⟩
  · have hreports : Row.Reports header record fault :=
      command.failsAs_interpret header record fault (hinterpret.symm.trans houtcome)
    refine ⟨fun _ => ⟨header, record, hrow, ?_⟩, fun _ => hreports.inDoubt_eq⟩
    rcases hreports with rfl | hreport
    · exact .inl (Fault.kind_ofCode_eq_timeout_iff.mp hkind)
    · exact .inr ⟨fault, hreport, hkind⟩
  · obtain rfl := Except.error.inj (hgiven.symm.trans houtcome)
    have hdoubt := hnone.inDoubt_of_timeout hlimits hwrite hkind
    simp [hdoubt, hrow]

/-- A timeout of a write is in doubt, whether the client's time ran out or the gateway's or the
transport's, with one exception: the database itself reports the timeout, in the row or as the result of
a script, and no earlier attempt has left doubt. -/
theorem timeout_sure_iff (hpayload : client.framer.command command = .ok payload)
    (hwrite : command.isWrite = true) (h : (client.execute command).run.Ends history (.error fault))
    (hkind : fault.kind = .timeout) :
    fault.inDoubt = false ↔
      ((attemptsIn history).dropLast.any fun attempt => attempt.leavesDoubt client command) = false ∧
      ∃ last header record, (attemptsIn history).getLast? = some last ∧
        last.row? = some (header, record) ∧
        (header.resultCode = .timeout ∨
          ∃ report, Udf.failure? record = some report ∧ report.kind = .timeout) := by
  rcases execute_error h with
    hfault | ⟨own, number, rfl, ⟨_, hrefusal⟩ | ⟨last, hlast, houtcome, hlimits⟩⟩
  · rw [hpayload] at hfault
    cases hfault
  · have hrefused := hrefusal.kind_mem
    rw [show own.kind = .timeout from hkind] at hrefused
    simp at hrefused
  obtain ⟨earlier, hearlier⟩ := List.getLast?_eq_some_iff.mp hlast
  have hleaves := Exchange.leavesDoubt_of_error houtcome
  have hsure : (own.inDoubt || (command.isWrite && (attemptsIn history).any fun attempt =>
        attempt.leavesDoubt client command)) = false ↔
      (earlier.any fun attempt => attempt.leavesDoubt client command) = false ∧
        own.inDoubt = false := by
    rw [hearlier, List.any_append, List.any_cons, hleaves, hwrite]
    cases own.inDoubt <;> simp
  have hown := sure_iff_reported (hlimits.trans hwrite) hwrite houtcome hkind
  have hdrop : (attemptsIn history).dropLast = earlier := by rw [hearlier, List.dropLast_concat]
  rw [hdrop]
  refine hsure.trans (and_congr_right fun _ => hown.trans ?_)
  constructor
  · rintro ⟨header, record, hrow⟩
    exact ⟨last, header, record, hlast, hrow⟩
  · rintro ⟨final, header, record, hfinal, hrow⟩
    obtain rfl := Option.some.inj (hlast.symm.trans hfinal)
    exact ⟨header, record, hrow⟩

/-- A sound reply whose row reports a timeout. -/
def timeoutRow : List (Delayed (Except Status Envelope.Response)) :=
  [⟨some 0, .ok { payload := Group.plain (Row.bareRow 0 9 0 0) }⟩]

theorem touch_row_timeout :
    (faultOf? ((bareClient.execute touchOnce).run.runIn (scripted timeoutRow) []).1) =
      some { Fault.ofCode .timeout with iteration := some 1 } := by
  decide +kernel

theorem sure_touch_timeout :
    ∃ history last header record,
      (bareClient.execute touchOnce).run.Ends history
        (.error { Fault.ofCode .timeout with iteration := some 1 }) ∧
      (attemptsIn history).getLast? = some last ∧ last.row? = some (header, record) ∧
      (header.resultCode = .timeout ∨
        ∃ report, Udf.failure? record = some report ∧ report.kind = .timeout) := by
  obtain ⟨history, -, hends⟩ :=
    ends_runIn (scripted timeoutRow) (bareClient.execute touchOnce).run []
  rw [eq_error_of_faultOf? touch_row_timeout] at hends
  obtain ⟨-, last, header, record, hlast, hrow, hreported⟩ :=
    (timeout_sure_iff rfl rfl hends rfl).mp rfl
  exact ⟨history, last, header, record, hends, hlast, hrow, hreported⟩

/-- A timeout of a write is not always in doubt: the database may report it. -/
theorem write_timeout_not_in_doubt :
    ¬ ∀ (client : Client) (command : Command) (payload : Bytes) (history : History) (fault : Fault),
      client.framer.command command = .ok payload → command.isWrite = true →
      (client.execute command).run.Ends history (.error fault) → fault.kind = .timeout →
      fault.inDoubt = true := by
  intro hall
  obtain ⟨history, -, hends⟩ :=
    ends_runIn (scripted timeoutRow) (bareClient.execute touchOnce).run []
  rw [eq_error_of_faultOf? touch_row_timeout] at hends
  cases hall _ _ _ _ _ rfl rfl hends rfl

end Client
end RecordGateway
