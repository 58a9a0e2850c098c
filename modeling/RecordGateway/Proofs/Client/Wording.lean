import RecordGateway.Proofs.Client.Packing
import RecordGateway.Proofs.Credential.Refusal
import RecordGateway.Proofs.Group.Length
import RecordGateway.Proofs.Row.Length

/-!
Whose words the message of a fault is (`Wording`). Most messages are this side's own or are cut to the
length that the client is told, so they are bounded whatever the gateway answers. Only what a script has left
in a row (`Row.Scripted`) is told as it is, however long: nothing on its way from the row to the caller cuts
it.
-/

namespace RecordGateway

open Fault (ownLength)
open RecordGateway.Flow

/-! ### Groups -/

namespace FrameReader.ByteReading

theorem terseAt_readExact (bytes : Bytes) {count offset : Nat} (hcount : count ≤ Group.maxSize)
    (hoffset : offset ≤ Group.headerLength) :
    TerseAt (readExact bytes count) offset fun given after =>
      given.length = count ∧ after = offset + count := by
  unfold TerseAt
  rw [show (readExact bytes count).run.run offset = _ from runAt_readExact bytes count offset]
  by_cases henough : offset + count ≤ bytes.length
  · rw [if_pos henough]
    refine ⟨List.length_take_of_le ?_, rfl⟩
    rw [List.length_drop]
    omega
  · rw [if_neg henough]
    have hcount : count ≤ 134217728 := hcount
    have hoffset : offset ≤ 8 := hoffset
    have hshort : (toString (count - (bytes.length - offset))).utf8ByteSize ≤ 9 :=
      utf8ByteSize_toString_le (by decide) (by omega)
    have hasked : (toString count).utf8ByteSize ≤ 9 := utf8ByteSize_toString_le (by decide) (by omega)
    have hplace : (toString offset).utf8ByteSize ≤ 1 := utf8ByteSize_toString_le (by decide) (by omega)
    refine Fault.fits_parse _ ?_
    simp only [String.utf8ByteSize_append]
    change 13 + _ + 18 + _ + 11 + (10 + _) ≤ 75
    omega

/-- The first group has a body of permitted size. -/
theorem terseAt_readGroup (bytes : Bytes) :
    TerseAt (readGroup bytes) 0 fun body _ => ∀ rows ∈ body, rows.length ≤ Group.maxSize := by
  have hends : TerseAt (atEnd bytes) 0 fun _ after => after = 0 := rfl
  unfold readGroup
  refine hends.bind fun ended offset hoffset => ?_
  subst hoffset
  split
  · exact terseAt_pure nofun
  refine (terseAt_readExact bytes (by decide) (by decide)).bind ?_
  rintro announced _ ⟨-, rfl⟩
  refine (terseAt_lift (Group.terse_decode _)).bind ?_
  rintro header _ ⟨hheader, rfl⟩
  have hsize := (Group.Header.decode_eq_ok_iff.mp hheader).2.1
  refine (terseAt_readExact bytes hsize (by decide)).bind ?_
  rintro packed _ ⟨hpacked, -⟩
  refine (terseAt_lift (Group.terse_unwrap header (by omega))).bind ?_
  rintro body _ ⟨hunwrap, -⟩
  refine terseAt_pure fun rows hrows => ?_
  obtain rfl := Option.some.inj hrows
  exact Group.length_of_unwrap (by omega) hunwrap

end FrameReader.ByteReading

namespace Client

variable {client : Client} {command : Command} {response : Envelope.Response} {fault : Fault}
  {history : History}

/-! ### Replies -/

theorem fits_readGroup {final : FrameReader} (hstatus : response.status = 0)
    (hprompt : ∀ event ∈ history, event.Prompt)
    (h : Yields FrameReader.readGroup (client.answerIn command response) history (.error fault) final) :
    fault.Fits ownLength := by
  have hlast : FrameReader.reachesLast (soleFrame response) = true := by
    simp [soleFrame, FrameReader.reachesLast, hstatus]
  obtain ⟨hplain, -⟩ := FrameReader.follows_readGroup hlast _ _ _ _ _ _ reached_answerIn hprompt h
  rw [payload_soleFrame hstatus] at hplain
  have hterse := (FrameReader.ByteReading.terseAt_readGroup response.payload).terse.1
  exact hterse fault (congrArg Prod.fst hplain)

/-- The fault of a reply is told in this side's own words, or in those that a script has left in the row
that the reply brings. -/
theorem fits_or_scripted_of_readReply (h : client.readReply command response = .error fault) :
    fault.Fits ownLength ∨
      ∃ header record, rowIn? response = some (header, record) ∧ Row.Scripted header record fault := by
  by_cases hstatus : response.status ≠ 0
  · rw [readReply_of_status hstatus] at h
    obtain rfl := Except.error.inj h
    exact .inl (Fault.fits_ofResponse _ _ _)
  have hstatus : response.status = 0 := not_not.mp hstatus
  obtain ⟨history, hprompt, hends⟩ :=
    ends_undisturbed (FrameReader.readGroup.run.run (client.answerIn command response))
  unfold readReply at h
  dsimp only at h
  rcases hrun : (FrameReader.readGroup.run.run (client.answerIn command response)).undisturbed with
    ⟨given, final⟩
  rw [hrun] at hends h
  rcases readGroup_answerIn hprompt hends with
    ⟨body, rest, rfl, -, hfirst⟩ | ⟨-, rfl | ⟨given, rfl, -⟩⟩
  · change (Row.readAnonymous.outcome body >>= fun row => command.interpret row.1 row.2) = _ at h
    cases hread : Row.readAnonymous.outcome body with
    | error given =>
        rw [hread] at h
        obtain rfl := Except.error.inj h
        exact .inl (Row.terse_readAnonymous.outcome (Group.length_le_of_first? hfirst) _ hread)
    | ok row =>
        rw [hread] at h
        have hrow : rowIn? response = some row := by
          rw [rowIn?, if_pos hstatus, hfirst, Option.bind_some, hread]
          rfl
        rcases command.failsAs_interpret_row row.1 row.2 fault h with rfl | hscripted
        · exact .inl (Fault.fits_ofCode _)
        · exact .inr ⟨row.1, row.2, hrow, hscripted⟩
  · obtain rfl := Except.error.inj h
    exact .inl (Fault.fits_parse _ (by decide))
  · obtain rfl := Except.error.inj h
    exact .inl (fits_readGroup hstatus hprompt hends)

/-! ### Calls -/

/-- Somebody who asked for an access token was refused for this reason. -/
def RefusedFor (history : History) (reason : String) : Prop :=
  ∃ limits, (⟨.credential limits, .refused reason⟩ : Event) ∈ history

theorem wording_authorization {limits : Limits}
    (h : (client.authorization limits).run.Ends history (.error fault)) :
    fault.Fits ownLength ∨ ∃ reason, fault.message = some reason ∧ RefusedFor history reason := by
  unfold authorization at h
  split at h
  · cases (ends_pure_iff.mp h).2
  obtain ⟨answer, rest, rfl, hrest⟩ := ends_run_query_bind_iff.mp h
  cases answer with
  | token text =>
      dsimp only at hrest
      split at hrest
      · obtain rfl := Except.error.inj (ends_pure_iff.mp hrest).2
        exact .inl (Fault.fits_of_message rfl (by decide))
      · cases (ends_pure_iff.mp hrest).2
  | refused reason =>
      obtain ⟨rfl, hfault⟩ := ends_pure_iff.mp hrest
      obtain rfl := Except.error.inj hfault
      exact .inr ⟨reason, rfl, limits, List.mem_singleton_self _⟩
  | _ =>
      obtain rfl := Except.error.inj (ends_pure_iff.mp hrest).2
      exact .inl (Fault.fits_of_message rfl (by decide))

theorem wording_prepare {method : Method} {request : Envelope.Request} {limits : Limits}
    (h : (client.prepare method request limits).run.Ends history (.error fault)) :
    fault.Fits ownLength ∨ ∃ reason, fault.message = some reason ∧ RefusedFor history reason := by
  unfold prepare at h
  obtain ⟨now, rest, rfl, hrest⟩ := ends_run_query_bind_iff.mp h
  dsimp only at hrest
  split at hrest
  · obtain rfl := Except.error.inj (ends_pure_iff.mp hrest).2
    exact .inl (Fault.fits_of_message rfl (by decide))
  · rcases ends_run_bind_iff.mp hrest with ⟨given, hgiven, hfault⟩ | ⟨_, _, _, -, -, hmade⟩
    · obtain rfl := Except.error.inj hfault
      refine (wording_authorization hgiven).imp_right ?_
      rintro ⟨reason, hreason, limits, hmem⟩
      exact ⟨reason, hreason, limits, List.mem_cons_of_mem _ hmem⟩
    · cases (ends_pure_iff.mp hmade).2

/-- Why a message is what it is: this side's own words, or those of the transport as far as the bound
allows; the reason for which the client got no access token; or what a script has left in the row that the
last attempt brought. -/
inductive Wording (client : Client) (history : History) (fault : Fault) : Prop
  | own : fault.Fits (max client.reporter.maxLength ownLength) → Wording client history fault
  | refused {reason : String} :
      fault.message = some reason → RefusedFor history reason → Wording client history fault
  | reported {attempt : Attempt} {header : Row.Header} {record : Record} {report : Fault} :
      (attemptsIn history).getLast? = some attempt → attempt.row? = some (header, record) →
      Row.Scripted header record report → fault.message = report.message →
      Wording client history fault

theorem Wording.of_fits (h : fault.Fits ownLength) : Wording client history fault :=
  .own (h.mono (Nat.le_max_right _ _))

/-- What stands before the attempts changes nothing. -/
theorem Wording.append {front : History} (hlocal : ∀ event ∈ front, event.question.IsLocal)
    (h : Wording client history fault) : Wording client (front ++ history) fault := by
  cases h with
  | own hfits => exact .own hfits
  | refused hmessage hrefused =>
      obtain ⟨limits, hmem⟩ := hrefused
      exact .refused hmessage ⟨limits, List.mem_append_right _ hmem⟩
  | reported hlast hrow hscripted hmessage =>
      refine .reported ?_ hrow hscripted hmessage
      rw [attemptsIn_append hlocal]
      exact hlast

theorem fits_settled {α : Type} {limits : Limits} {reply : Delayed (Except Status α)} {waited : Waited}
    (h : Settled client limits reply waited history (.error fault)) :
    fault.Fits (max client.reporter.maxLength ownLength) := by
  cases h with
  | cancelled => exact Fault.fits_callCancelled.mono (Nat.le_max_right _ _)
  | timedOut => exact (Fault.fits_deadlineExceeded _).mono (Nat.le_max_right _ _)
  | rejected => exact (Fault.fits_ofStatus _ _ _).mono (Nat.le_max_left _ _)

theorem wording_unary {method : Method} {request : Envelope.Request} {limits : Limits}
    (h : (client.unary method request limits).run.Ends history (.error fault)) :
    fault.Fits (max client.reporter.maxLength ownLength) ∨
      ∃ reason, fault.message = some reason ∧ RefusedFor history reason := by
  unfold unary at h
  rcases ends_run_bind_iff.mp h with
    ⟨given, hprepare, hfault⟩ | ⟨front, back, call, rfl, -, hexchange⟩
  · obtain rfl := Except.error.inj hfault
    exact (wording_prepare hprepare).imp_left fun hfits => hfits.mono (Nat.le_max_right _ _)
  · cases exchange_cases hexchange with
    | refused => exact .inl (Fault.fits_callCancelled.mono (Nat.le_max_right _ _))
    | waited _ hsettled => exact .inl (fits_settled hsettled)

theorem row?_of_received {exchange : Exchange}
    (h : exchange.received client.reporter = .ok response) : exchange.row? = rowIn? response := by
  obtain ⟨call, ⟨delay, value⟩, limits, waited⟩ := exchange
  cases waited with
  | cancelled => cases h
  | timedOut => cases h
  | arrived =>
      cases value with
      | error status => cases h
      | ok given =>
          obtain rfl := Except.ok.inj h
          rfl

variable {payload : Bytes} {id : UInt32} {total : Option Time} {iteration retries : Nat} {doubt : Bool}

/-- The words in which one attempt fails, also when what follows it is on this side. -/
theorem wording_attempt {back : History} (hback : ∀ event ∈ back, event.question.IsLocal)
    (h : (client.attempt command payload id iteration total).run.Ends history (.error fault)) :
    Wording client (history ++ back) fault := by
  unfold attempt at h
  obtain ⟨began, rest, rfl, hrest⟩ := ends_run_query_bind_iff.mp h
  rw [List.cons_append, ← List.singleton_append]
  refine Wording.append (by simp [Ask.IsLocal]) ?_
  dsimp only at hrest
  rcases ends_run_bind_iff.mp hrest with
    ⟨given, hunary, hfault⟩ | ⟨front, silent, response, rfl, hunary, hreply⟩
  · obtain rfl := Except.error.inj hfault
    rcases wording_unary hunary with hfits | ⟨reason, hmessage, limits, hmem⟩
    · exact .own hfits
    · exact .refused hmessage ⟨limits, List.mem_append_left _ hmem⟩
  · obtain ⟨rfl, hfault⟩ := ends_run_lift_iff.mp hreply
    rcases fits_or_scripted_of_readReply hfault.symm with hfits | ⟨header, record, hrow, hscripted⟩
    · exact .of_fits hfits
    generalize hreceived : Except.ok response = received at hunary
    cases unary_cases hunary with
    | refused => cases hreceived
    | @handed exchange hshows =>
        have hlast : (attemptsIn (front ++ [] ++ back)).getLast? =
            some { exchange with reviewed := back.findSome? Event.clock? } := by
          rw [List.append_nil, hshows.attemptsIn_append, attemptsIn_of_local hback]
          rfl
        exact .reported hlast ((row?_of_received hreceived.symm).trans hrow) hscripted rfl

/-- What stands behind an attempt decides, if anything stands there. -/
theorem Wording.behind {outcome : Except Fault Command.Output} {rest : History}
    (hattempt : (client.attempt command payload id iteration total).run.Ends history outcome)
    (h : Wording client rest fault) : Wording client (history ++ rest) fault := by
  cases attempt_cases hattempt with
  | refused hlocal => exact h.append hlocal
  | handed _ hshows =>
      cases h with
      | own hfits => exact .own hfits
      | refused hmessage hrefused =>
          obtain ⟨limits, hmem⟩ := hrefused
          exact .refused hmessage ⟨limits, List.mem_append_right _ hmem⟩
      | reported hlast hrow hscripted hmessage =>
          refine .reported ?_ hrow hscripted hmessage
          rw [hshows.attemptsIn_append, List.getLast?_cons, hlast]
          rfl

/-- What is added to a fault for the caller leaves its message as it is. -/
theorem Wording.told (h : Wording client history fault) (inDoubt : Bool) (iteration : Option Nat) :
    Wording client history { fault with inDoubt, iteration } := by
  cases h with
  | own hfits => exact .own hfits
  | refused hmessage hrefused => exact .refused hmessage hrefused
  | reported hlast hrow hscripted hmessage => exact .reported hlast hrow hscripted hmessage

/-- The induction is on the retries that are left. -/
theorem wording_attempts
    (h : (client.attempts command payload id total retries iteration doubt).Ends history
      (.error fault)) : Wording client history fault := by
  induction retries using Nat.strongRecOn generalizing iteration doubt history with
  | ind retries ih =>
      obtain ⟨front, back, outcome, rfl, hattempt, hfollowed⟩ := attempts_cases h
      cases hfollowed with
      | failed hsilent _ => exact (wording_attempt hsilent hattempt).told _ _
      | repeated hpause _ hrest =>
          refine Wording.behind hattempt ?_
          rw [← List.cons_append]
          refine (ih _ (Nat.lt_succ_self _) hrest).append ?_
          rw [List.forall_mem_cons]
          exact ⟨trivial, hpause⟩

theorem wording_execute (hpayload : client.framer.command command = .ok payload)
    (h : (client.execute command).run.Ends history (.error fault)) : Wording client history fault := by
  rcases execute_cases h with ⟨given, hfault, -⟩ | ⟨bytes, start, id, later, -, rfl, hlater⟩
  · cases hpayload.symm.trans hfault
  have hbefore : ∀ event ∈ ([⟨.clock, start⟩, ⟨.drawId, id⟩] : History), event.question.IsLocal := by
    simp [Ask.IsLocal]
  have hwording := (wording_attempts hlater).append hbefore
  exact hwording

end Client

/-! ### Slots -/

namespace Batch

variable {slot : Slot} {fault : Fault} {text : String}

/-- A slot says nothing but what a script has left in the row that answered it. -/
theorem Slot.message_cases (h : slot.fault? = some fault) (htext : fault.message = some text) :
    slot.code = .udfBadResponse ∧ ∃ record report, slot.record = some record ∧
      Udf.failure? record = some report ∧ report.message = some text := by
  unfold fault? at h
  split at h
  · cases h
  split at h
  · cases h
  split at h
  · next hscript =>
      obtain rfl := Option.some.inj h
      refine ⟨hscript, ?_⟩
      cases hreport : slot.record >>= Udf.failure? with
      | none =>
          rw [hreport] at htext
          cases htext
      | some report =>
          rw [hreport] at htext
          obtain ⟨record, hrecord, hfailure⟩ := Option.bind_eq_some_iff.mp hreport
          exact ⟨record, report, hrecord, hfailure, htext⟩
  · obtain rfl := Option.some.inj h
    cases htext

theorem Outcome.record_ofRow {hasWrite : Bool} {row : AnswerRow} {record : Record}
    (h : (Outcome.ofRow hasWrite row).record = some record) : record = row.2 := by
  rw [Outcome.ofRow] at h
  grind

theorem Slot.sweep_eq (slot : Slot) : ∃ inDoubt, slot.sweep = { slot with inDoubt } := by
  unfold sweep
  split
  · exact ⟨_, rfl⟩
  · exact ⟨slot.inDoubt, rfl⟩

/-- What is said of a slot after a batch is what a script has left in the first row for the slot. -/
theorem Slot.message_after {arrived : Option AnswerRow} {inDoubt : Bool}
    (h : Slot.fault? { slot.reset.after arrived with inDoubt } = some fault)
    (htext : fault.message = some text) :
    ∃ header record report, arrived = some (header, record) ∧ header.resultCode = .udfBadResponse ∧
      Udf.failure? record = some report ∧ report.message = some text := by
  obtain ⟨hcode, record, report, hrecord, hfailure, hmessage⟩ := message_cases h htext
  cases arrived with
  | none => cases hrecord
  | some row =>
      obtain rfl := Outcome.record_ofRow hrecord
      exact ⟨row.1, row.2, report, rfl, (Outcome.code_ofRow _ row).symm.trans hcode, hfailure, hmessage⟩

end Batch

namespace Client

variable {client : Client} {policy : Policy} {slots result : List Batch.Slot} {history : History}
  {fault : Fault} {text : String}

theorem message_of_slot {outcome : Except Fault Bool} {index : Nat} {slot : Batch.Slot}
    (h : (client.batch policy slots).Ends history (outcome, result)) (hslot : result[index]? = some slot)
    (hfault : slot.fault? = some fault) (htext : fault.message = some text) :
    ∃ header record report, arrivedFor slots.length history index = some (header, record) ∧
      header.resultCode = .udfBadResponse ∧ Udf.failure? record = some report ∧
      report.message = some text := by
  rcases batch_spec h with ⟨_, -, rfl, -⟩ | ⟨_, -, rfl⟩
  · rw [List.getElem?_mapIdx, Option.map_eq_some_iff] at hslot
    obtain ⟨original, -, rfl⟩ := hslot
    exact Batch.Slot.message_after hfault htext
  · rw [List.getElem?_map, List.getElem?_mapIdx, Option.map_map, Option.map_eq_some_iff] at hslot
    obtain ⟨original, -, rfl⟩ := hslot
    rw [Function.comp_apply] at hfault
    obtain ⟨inDoubt, hswept⟩ := Batch.Slot.sweep_eq
      (original.reset.after (arrivedFor slots.length history index))
    rw [hswept] at hfault
    exact Batch.Slot.message_after hfault htext

/-! ### Messages -/

/-- The message of the fault with which a command ends takes no more bytes than the client is told, or than
messages that quote nobody, with two exceptions. It may be the reason for which the client got no access
token, but that is bounded too. And it may be what a script has left in the row that the last attempt
brought; that is told as it is, however long. A slot of a batch says nothing else at all. -/
theorem long_message_is_report (client : Client) :
    (∀ (command : Command) (payload : Bytes) (history : History) (fault : Fault) (text : String),
      client.framer.command command = .ok payload →
      (client.execute command).run.Ends history (.error fault) → fault.message = some text →
        text.utf8ByteSize ≤ max client.config.maxErrorLength ownLength ∨ RefusedFor history text ∨
        ∃ last header record report, (attemptsIn history).getLast? = some last ∧
          last.row? = some (header, record) ∧
          (header.resultCode = .ok ∨ header.resultCode = .udfBadResponse) ∧
          Udf.failure? record = some report ∧ report.message = some text) ∧
    (∀ (policy : Policy) (slots result : List Batch.Slot) (history : History)
      (outcome : Except Fault Bool) (index : Nat) (slot : Batch.Slot) (fault : Fault) (text : String),
      (client.batch policy slots).Ends history (outcome, result) → result[index]? = some slot →
      slot.fault? = some fault → fault.message = some text →
        ∃ header record report, arrivedFor slots.length history index = some (header, record) ∧
          header.resultCode = .udfBadResponse ∧ Udf.failure? record = some report ∧
          report.message = some text) ∧
    ∀ (script : Session.Script) (log : List Credential.Happening) (session next : Session)
      (seen : Option Nat) (limits : Limits) (reason : String),
      Credential.Runs (.start client script) log session →
      session.pollCredential seen limits = .answered (.refused reason) next →
        reason.utf8ByteSize ≤ client.config.maxErrorLength := by
  refine ⟨?_, ?_, ?_⟩
  · intro command payload history fault text hpayload hends htext
    cases wording_execute hpayload hends with
    | own hfits => exact .inl (hfits text htext)
    | refused hmessage hrefused =>
        obtain rfl := Option.some.inj (htext.symm.trans hmessage)
        exact .inr (.inl hrefused)
    | @reported last header record report hlast hrow hscripted hmessage =>
        exact .inr (.inr ⟨last, header, record, report, hlast, hrow, hscripted.code_eq,
          hscripted.failure?_eq, hmessage.symm.trans htext⟩)
  · intro policy slots result history outcome index slot fault text hends hslot hfault htext
    exact message_of_slot hends hslot hfault htext
  · intro script log session next seen limits reason hrun hpoll
    exact hrun.length_reason (Credential.held_start client script) (Credential.held_of_refused hpoll)

/-- A row of a script that failed, with a bin `FAILURE` of ninety-six characters. -/
def longReportRow : Bytes :=
  [22, 0, 0, 0, 0, 100, 0, 0, 0, 7, 0, 0, 0, 0, 0, 0, 0, 0, 0, 0, 0, 1] ++
    [0, 0, 0, 107, 1, 3, 0, 7, 0x46, 0x41, 0x49, 0x4c, 0x55, 0x52, 0x45] ++ List.replicate 96 0x78

/-- A client that wants messages of at most eighty bytes. -/
def briefClient : Client :=
  { bareClient with config := { bareClient.config with maxErrorLength := 80 } }

/-- A read that may be tried once. -/
def readOnce : Command where
  key := {}
  policy := {}
  action := .get none

theorem exists_long_report : ∃ history fault text,
    (briefClient.execute readOnce).run.Ends history (.error fault) ∧ fault.message = some text ∧
      text.utf8ByteSize = 96 ∧ ∀ reason, ¬ RefusedFor history reason := by
  let surroundings := scripted [⟨some 0, .ok (oneRow longReportRow)⟩]
  obtain ⟨history, -, hnone, hends⟩ := ends_runIn_where
    (P := fun event => ∀ limits reason, event ≠ ⟨.credential limits, .refused reason⟩) surroundings
    (by rintro past question limits reason ⟨⟩) (briefClient.execute readOnce).run []
  have hlong : ((faultOf? ((briefClient.execute readOnce).run.runIn surroundings []).1 >>=
      Fault.message).map String.utf8ByteSize) = some 96 := by
    decide +kernel
  obtain ⟨text, htext, hlength⟩ := Option.map_eq_some_iff.mp hlong
  obtain ⟨fault, hfault, hmessage⟩ := Option.bind_eq_some_iff.mp htext
  rw [eq_error_of_faultOf? hfault] at hends
  refine ⟨history, fault, text, hends, hmessage, hlength, ?_⟩
  rintro reason ⟨limits, hmem⟩
  exact hnone _ hmem limits reason rfl

theorem exists_long_report_in_slot : ∃ history outcome result slot fault text,
    (briefClient.batch {} [Batch.Slot.udf {} "" "" []]).Ends history (outcome, result) ∧
      result[0]? = some slot ∧ slot.fault? = some fault ∧ fault.message = some text ∧
      text.utf8ByteSize = 96 := by
  let surroundings := answering [⟨some 0, .ok (oneRow longReportRow)⟩]
  obtain ⟨history, -, hends⟩ :=
    ends_runIn surroundings (briefClient.batch {} [Batch.Slot.udf {} "" "" []]) []
  have hlong : (((briefClient.batch {} [Batch.Slot.udf {} "" "" []]).runIn surroundings []).1.2[0]? >>=
      fun slot => slot.fault? >>= Fault.message).map String.utf8ByteSize = some 96 := by
    decide +kernel
  generalize ((briefClient.batch {} [Batch.Slot.udf {} "" "" []]).runIn surroundings []).1 = ran
    at hends hlong
  obtain ⟨outcome, result⟩ := ran
  obtain ⟨text, htext, hlength⟩ := Option.map_eq_some_iff.mp hlong
  obtain ⟨slot, hslot, hsaid⟩ := Option.bind_eq_some_iff.mp htext
  obtain ⟨fault, hfault, hmessage⟩ := Option.bind_eq_some_iff.mp hsaid
  exact ⟨history, outcome, result, slot, fault, text, hends, hslot, hfault, hmessage, hlength⟩

/-- A session whose client has credentials, to which the gateway gives no token. -/
def lockedSession : Session :=
  .start { briefClient with config := { briefClient.config with credentials := some ⟨"", ""⟩ } }
    { logins := [some ⟨some 0, .error ⟨.unauthenticated, "", []⟩⟩] }

theorem exists_refusal : ∃ log session next reason, Credential.Runs lockedSession log session ∧
    session.pollCredential none {} = .answered (.refused reason) next := by
  let outcome : Except Status String := .error ⟨.unauthenticated, "", []⟩
  let waiting : Credential.Refresher := { phase := .loggingIn (some 0) outcome }
  let begun : Session :=
    { lockedSession with refresher := some waiting, script.logins := [], logins := [0] }
  let answered : Session :=
    { begun with refresher := some (waiting.settle lockedSession.refresherSettings 0 outcome) }
  have hbegin : Credential.Move lockedSession [] begun := .refresh rfl
  have hanswer : Credential.Move begun (Credential.taken begun) answered := .refresh rfl
  exact ⟨_, answered, answered, _, (Credential.Runs.refl.step hbegin).step hanswer, rfl⟩

theorem long_report_told :
    (∃ history fault text last header record report,
      (briefClient.execute readOnce).run.Ends history (.error fault) ∧ fault.message = some text ∧
      text.utf8ByteSize = 96 ∧ (attemptsIn history).getLast? = some last ∧
      last.row? = some (header, record) ∧ Udf.failure? record = some report ∧
      report.message = some text) ∧
    (∃ history result slot fault text header record,
      (briefClient.batch {} [Batch.Slot.udf {} "" "" []]).Ends history result ∧
      slot ∈ result.2 ∧ slot.fault? = some fault ∧ fault.message = some text ∧
      text.utf8ByteSize = 96 ∧ arrivedFor 1 history 0 = some (header, record) ∧
      header.resultCode = .udfBadResponse) ∧
    ∃ log session next reason, Credential.Runs lockedSession log session ∧
      session.pollCredential none {} = .answered (.refused reason) next ∧
      reason.utf8ByteSize ≤ 80 := by
  obtain ⟨hexecute, hbatch, -⟩ := long_message_is_report briefClient
  refine ⟨?_, ?_, ?_⟩
  · obtain ⟨history, fault, text, hends, hmessage, hlength, hnone⟩ := exists_long_report
    rcases hexecute readOnce [] history fault text rfl hends hmessage with
      hfits | hrefused | ⟨last, header, record, report, hlast, hrow, -, hreport, htold⟩
    · rw [hlength] at hfits
      exact absurd hfits (by decide)
    · exact absurd hrefused (hnone text)
    · exact ⟨history, fault, text, last, header, record, report, hends, hmessage, hlength, hlast, hrow,
        hreport, htold⟩
  · obtain ⟨history, outcome, result, slot, fault, text, hends, hslot, hfault, hmessage, hlength⟩ :=
      exists_long_report_in_slot
    obtain ⟨header, record, report, harrived, hcode, -⟩ :=
      hbatch {} _ result history outcome 0 slot fault text hends hslot hfault hmessage
    exact ⟨history, (outcome, result), slot, fault, text, header, record, hends,
      List.mem_of_getElem? hslot, hfault, hmessage, hlength, harrived, hcode⟩
  · obtain ⟨-, -, hreason⟩ := long_message_is_report lockedSession.client
    obtain ⟨log, session, next, reason, hrun, hpoll⟩ := exists_refusal
    exact ⟨log, session, next, reason, hrun, hpoll, hreason _ _ _ _ _ _ _ hrun hpoll⟩

/-- The message of a command is not bounded by the maximum that the client is told: a script may report more. -/
theorem report_exceeds_maximum :
    ¬ ∀ (client : Client) (command : Command) (payload : Bytes) (history : History) (fault : Fault)
        (text : String),
      ownLength ≤ client.config.maxErrorLength → client.framer.command command = .ok payload →
      (client.execute command).run.Ends history (.error fault) → fault.message = some text →
        text.utf8ByteSize ≤ client.config.maxErrorLength := by
  intro hall
  obtain ⟨history, fault, text, hends, hmessage, hlength, -⟩ := exists_long_report
  have hshort := hall briefClient readOnce [] history fault text (by decide) rfl hends hmessage
  rw [hlength] at hshort
  exact absurd hshort (by decide)

end Client
end RecordGateway
