import RecordGateway.Proofs.Batch.Reassembly
import RecordGateway.Proofs.Client.Reads
import RecordGateway.Proofs.Flow.Indifference
import RecordGateway.Proofs.FrameReader.Chunks

/-!
How a group is packed makes no difference to who reads it. Reading the next group gives its body, plain or
compressed, and leads behind it (`readGroup_of_packs`). A command therefore makes the same of two replies
that bring the same body (`readReply_of_repacked`), goes on in the same way whichever of them it gets, and
ends with the same result (`indifferent_execute`).
-/

namespace RecordGateway

open RecordGateway.Flow

/-! ### Reading a group -/

namespace FrameReader

variable {start : List Arrival} {taken : Nat} {consumed : Bytes} {reader final : FrameReader}
  {history : History} {result : Except Fault (Option Bytes)} {wire body rest : Bytes}

/-- The next group of an answer that nothing cuts off is read, whichever way it is packed. -/
theorem readGroup_of_packs (hpacks : Group.Packs wire body) (hlast : reachesLast start = true)
    (hrest : payload start = consumed ++ (wire ++ rest)) (hreached : Reached start taken consumed reader)
    (hprompt : ∀ event ∈ history, event.Prompt) (h : Yields readGroup reader history result final) :
    result = .ok (some body) ∧ ∃ taken, Reached start taken (consumed ++ wire) final := by
  have hfirst := hpacks.first?_eq rest
  cases readGroup_spec hreached h with
  | finished hfinal hended hnil =>
      have hbytes := (hfinal.complete hended).1
      rw [hfinal.payload_eq, hnil, hrest] at hbytes
      have hnone : wire ++ rest = [] := List.append_cancel_left hbytes
      rw [hnone, Group.first?_of_length_lt (by decide)] at hfirst
      cases hfirst
  | @group found bytes _ hfinal hgroup =>
      obtain ⟨more, hmore⟩ := hfinal.rest_eq hrest
      rw [hmore, hgroup] at hfirst
      obtain ⟨rfl, hleft⟩ := Prod.mk.inj (Option.some.inj hfirst)
      rw [hleft] at hmore
      obtain rfl := List.append_cancel_right hmore
      exact ⟨rfl, _, hfinal⟩
  | failed _ _ hwhy =>
      rcases hwhy with htrouble | hunsound
      · exact absurd htrouble (not_trouble hlast hprompt)
      · rw [(hunsound _ hrest).2] at hfirst
        cases hfirst

/-- Unless a wait is cut off, the activity fails with a certain fault. -/
def Refuses {α : Type} (activity : Reading α) (reader : FrameReader) (fault : Fault) : Prop :=
  ∀ history result final, (∀ event ∈ history, event.Prompt) →
    Yields activity reader history result final → result = .error fault

theorem Refuses.bind {α β : Type} {activity : Reading α} {f : α → Reading β} {fault : Fault}
    (hactivity : Refuses activity reader fault) : Refuses (activity >>= f) reader fault := by
  intro history result final hprompt h
  rcases yields_bind_iff.mp h with ⟨given, hgiven, rfl⟩ | ⟨front, back, value, _, rfl, hvalue, -⟩
  · obtain rfl := Except.error.inj (hactivity _ _ _ hprompt hgiven)
    rfl
  · rw [List.forall_mem_append] at hprompt
    cases hactivity _ _ _ hprompt.1 hvalue

section Status

variable {delay : Option Time} {response : Envelope.Response} {later : List Arrival}
  (harrivals : reader.stream.arrivals = ⟨delay, .ok response⟩ :: later)
  (hstatus : response.status ≠ 0)
include harrivals hstatus

theorem refuses_takeFrame :
    Refuses takeFrame reader
      (.ofResponse response.status.toInt response.inDoubt reader.limits.isWrite) := by
  intro history result final _ h
  unfold takeFrame at h
  rw [yields_get_bind_iff] at h
  simp only [harrivals, if_pos hstatus] at h
  exact (yields_throw_iff.mp (yields_set_bind_iff.mp h)).2.1

theorem refuses_nextFrame (hended : reader.ended = false) :
    Refuses nextFrame reader
      (.ofResponse response.status.toInt response.inDoubt reader.limits.isWrite) := by
  intro history result final hprompt h
  unfold nextFrame at h
  rw [yields_get_bind_iff, hended] at h
  rcases yields_bind_iff.mp h with
    ⟨fault, hwait, -⟩ | ⟨front, back, waited, middle, rfl, hwait, htake⟩
  · obtain ⟨_, _, hok, -⟩ := waitForFrame_spec hwait
    cases hok
  rw [List.forall_mem_append] at hprompt
  obtain ⟨_, due, hok, rfl, -, hlate⟩ := waitForFrame_spec hwait
  obtain rfl := Except.ok.inj hok
  have harrived : waited = Waited.arrived := by
    by_contra hnot
    obtain ⟨event, hmem, hevent⟩ := hlate hnot
    exact hevent (hprompt.1 event hmem)
  have hframe : Refuses takeFrame { reader with stream.due := due }
      (.ofResponse response.status.toInt response.inDoubt reader.limits.isWrite) :=
    refuses_takeFrame harrivals hstatus
  rw [harrived] at htake
  exact hframe.bind _ _ _ hprompt.2 htake

/-- Where the next frame has a status of its own, no group is read: looking for the end takes the frame
in. -/
theorem refuses_readGroup (hended : reader.ended = false) (hbuffer : reader.buffer = []) :
    Refuses readGroup reader
      (.ofResponse response.status.toInt response.inDoubt reader.limits.isWrite) := by
  have hfill : Refuses (fill fun buffer => !buffer.isEmpty) reader
      (.ofResponse response.status.toInt response.inDoubt reader.limits.isWrite) := by
    intro history result final hprompt h
    unfold fill fillFrom at h
    simp only [yields_get_bind_iff, hbuffer] at h
    exact (refuses_nextFrame harrivals hstatus hended).bind _ _ _ hprompt h
  exact hfill.bind.bind

end Status

end FrameReader

/-! ### Replies -/

/-- Two responses that differ in how the group is packed with which they begin, and in nothing that is
read. -/
structure Envelope.Response.Repacked (response other : Envelope.Response) : Prop where
  others_eq : other = { response with payload := other.payload }
  payloads : ∃ wire wire' body rest, Group.Packs wire body ∧ Group.Packs wire' body ∧
    response.payload = wire ++ rest ∧ other.payload = wire' ++ rest

/-- Answers that differ at most in how the groups of replies are packed. -/
def Ask.Repacked : Alikeness
  | .send _, answer, other =>
    answer = other ∨ ∃ delay response repacked, answer = ⟨delay, .ok response⟩ ∧
      other = ⟨delay, .ok repacked⟩ ∧ response.Repacked repacked
  | _, answer, other => answer = other

namespace Client

variable {client : Client} {command : Command} {response repacked : Envelope.Response}

theorem readReply_of_packs {wire body rest : Bytes} (hpacks : Group.Packs wire body)
    (hstatus : response.status = 0) (hpayload : response.payload = wire ++ rest) :
    client.readReply command response =
      Row.readAnonymous.outcome body >>= fun row => command.interpret row.1 row.2 := by
  have hlast : FrameReader.reachesLast (soleFrame response) = true := by
    simp [soleFrame, FrameReader.reachesLast, hstatus]
  have hbytes : FrameReader.payload (soleFrame response) = [] ++ (wire ++ rest) := by
    rw [payload_soleFrame hstatus, hpayload, List.nil_append]
  obtain ⟨history, hprompt, hends⟩ :=
    ends_undisturbed (FrameReader.readGroup.run.run (client.answerIn command response))
  rcases hrun : (FrameReader.readGroup.run.run (client.answerIn command response)).undisturbed with
    ⟨given, final⟩
  rw [hrun] at hends
  obtain ⟨rfl, -⟩ :=
    FrameReader.readGroup_of_packs hpacks hlast hbytes reached_answerIn hprompt hends
  unfold readReply
  dsimp only
  rw [hrun]
  rfl

theorem readReply_of_status (hstatus : response.status ≠ 0) :
    client.readReply command response =
      .error (.ofResponse response.status.toInt response.inDoubt command.isWrite) := by
  obtain ⟨history, hprompt, hends⟩ :=
    ends_undisturbed (FrameReader.readGroup.run.run (client.answerIn command response))
  rcases hrun : (FrameReader.readGroup.run.run (client.answerIn command response)).undisturbed with
    ⟨given, final⟩
  rw [hrun] at hends
  have hsole : (client.answerIn command response).stream.arrivals =
      [⟨some 0, .ok { response with hasNext := false }⟩] := rfl
  obtain rfl := FrameReader.refuses_readGroup hsole hstatus rfl rfl _ _ _ hprompt hends
  unfold readReply
  dsimp only
  rw [hrun]
  rfl

theorem readReply_of_repacked (h : response.Repacked repacked) :
    client.readReply command response = client.readReply command repacked := by
  obtain ⟨hothers, wire, wire', body, rest, hwire, hwire', hpayload, hrepacked⟩ := h
  have hsame : repacked.status = response.status := by rw [hothers]
  have hdoubt : repacked.inDoubt = response.inDoubt := by rw [hothers]
  by_cases hstatus : response.status = 0
  · rw [readReply_of_packs hwire hstatus hpayload,
      readReply_of_packs hwire' (hsame.trans hstatus) hrepacked]
  · rw [readReply_of_status hstatus, readReply_of_status (hsame ▸ hstatus), hsame, hdoubt]

/-! ### Commands -/

theorem eq_of_repacked {question : Ask} (hlocal : question.IsLocal) {answer other : question.Answer}
    (h : question.Repacked answer other) : answer = other := by
  cases question with
  | send => exact hlocal.elim
  | _ => exact h

theorem indifferent_of_local {α : Type} {flow : Flow α} (h : flow.Asks Ask.IsLocal) :
    flow.Indifferent Ask.Repacked :=
  indifferent_of_asks (fun _ hlocal _ _ => eq_of_repacked hlocal) h

theorem indifferent_exchange {call : Call} {limits : Limits} :
    (client.exchange limits (Flow.query (.send call)) >>= fun response =>
      liftM (client.readReply command response)).run.Indifferent Ask.Repacked := by
  unfold exchange
  rw [LawfulMonad.bind_assoc]
  refine .run_bind (indifferent_of_local (asks_run_query trivial)) fun cancelled => ?_
  cases cancelled with
  | true => exact indifferent_pure _
  | false =>
      constructor
      · rintro answer other (rfl | ⟨delay, response, repacked, rfl, rfl, hrepacked⟩)
        · rfl
        refine congrArg (Flow.ask .clock) (funext fun now => ?_)
        refine congrArg (Flow.ask (.wait _ limits)) (funext fun waited => ?_)
        cases waited with
        | cancelled => rfl
        | timedOut => rfl
        | arrived =>
            have hreply : client.readReply command response = client.readReply command repacked :=
              readReply_of_repacked hrepacked
            change (liftM (client.readReply command response) : Making Command.Output).run =
              (liftM (client.readReply command repacked) : Making Command.Output).run
            rw [hreply]
      · intro answer
        refine ⟨fun _ _ hsame => by rw [hsame], fun now => ⟨fun _ _ hsame => by rw [hsame],
          fun waited => ?_⟩⟩
        obtain ⟨delay, value⟩ := answer
        cases waited with
        | cancelled => exact indifferent_pure _
        | timedOut => exact indifferent_pure _
        | arrived =>
            cases value with
            | ok response => exact indifferent_run_lift (client.readReply command response)
            | error status =>
                have hthrown : (client.rejected status limits >>= fun fault =>
                    (throw fault : Making Envelope.Response)).run.Indifferent Ask.Repacked :=
                  (indifferent_of_local asks_rejected).run_bind fun _ => indifferent_pure _
                exact hthrown.run_bind fun response =>
                  indifferent_run_lift (client.readReply command response)

theorem indifferent_attempt {payload : Bytes} {id : UInt32} {iteration : Nat} {total : Option Time} :
    (client.attempt command payload id iteration total).run.Indifferent Ask.Repacked := by
  unfold attempt
  refine .run_bind (indifferent_of_local (asks_run_query trivial)) fun now => ?_
  dsimp only
  unfold unary
  rw [LawfulMonad.bind_assoc]
  exact .run_bind (indifferent_of_local asks_prepare) fun call => indifferent_exchange

theorem indifferent_attempts {payload : Bytes} {id : UInt32} {total : Option Time}
    {retries iteration : Nat} {doubt : Bool} :
    (client.attempts command payload id total retries iteration doubt).Indifferent Ask.Repacked := by
  induction retries generalizing iteration doubt with
  | zero =>
      rw [attempts]
      refine indifferent_attempt.bind fun outcome => ?_
      cases outcome with
      | ok output => exact indifferent_pure _
      | error fault => exact indifferent_pure _
  | succ retries ih =>
      rw [attempts]
      refine indifferent_attempt.bind fun outcome => ?_
      cases outcome with
      | ok output => exact indifferent_pure _
      | error fault =>
          have hclock : Flow.clock.Asks Ask.IsLocal := asks_query trivial
          refine (indifferent_of_local hclock).bind fun now => ?_
          split
          · split
            · exact (indifferent_of_local (asks_sleep _)).bind fun _ => ih
            · exact ih
          · exact indifferent_pure _

/-- A command goes on in the same way however the groups of its replies are packed. -/
theorem indifferent_execute : (client.execute command).run.Indifferent Ask.Repacked := by
  unfold execute
  refine .run_bind (indifferent_run_lift _) fun payload => ?_
  refine .run_bind (indifferent_of_local (asks_run_query trivial)) fun now => ?_
  refine .run_bind (indifferent_of_local (asks_run_query trivial)) fun id => ?_
  exact indifferent_attempts

/-- A body is taken out of a group exactly if the group has the form of one, and is refused as unsound
otherwise. The next group of an answer is therefore read the same whichever way it is packed, and a command
ends with the same result when groups of its replies are packed in another way. -/
theorem packing_makes_no_difference :
    (∀ (inflate : Bytes → Option Bytes) (header : Group.Header) (packed : Bytes),
      FailsAs Fault.IsParse (Group.unwrapWith inflate header packed) ∧
      ∀ body, Group.unwrapWith inflate header packed = .ok body ↔
        Group.Unpacks inflate header packed body) ∧
    (∀ (wire body rest consumed : Bytes) (start : List Arrival) (taken : Nat)
      (reader final : FrameReader) (history : History) (result : Except Fault (Option Bytes)),
      Group.Packs wire body → FrameReader.reachesLast start = true →
      FrameReader.payload start = consumed ++ (wire ++ rest) →
      FrameReader.Reached start taken consumed reader → (∀ event ∈ history, event.Prompt) →
      Yields FrameReader.readGroup reader history result final →
        result = .ok (some body) ∧
          ∃ taken, FrameReader.Reached start taken (consumed ++ wire) final) ∧
    ∀ (client : Client) (command : Command) (history other : History)
      (result : Except Fault Command.Output),
      List.Forall₂ (Event.Alike Ask.Repacked) history other →
      (client.execute command).run.Ends history result →
        (client.execute command).run.Ends other result := by
  refine ⟨fun inflate header packed => ?_, ?_, ?_⟩
  · exact ⟨Group.failsAs_unwrapWith inflate header packed, fun body => Group.unwrapWith_eq_ok_iff⟩
  · intro wire body rest consumed start taken reader final history result hpacks hlast hrest hreached
      hprompt h
    exact FrameReader.readGroup_of_packs hpacks hlast hrest hreached hprompt h
  · intro client command history other result halike h
    exact indifferent_execute.ends halike h

/-- A gateway that always replies the same. -/
def alwaysReplying (response : Envelope.Response) : Surroundings
  | _, .send _ => ⟨some 0, .ok response⟩
  | _, question => calmAnswer question

/-- The row of a timeout, compressed. -/
def deflatedReply : Envelope.Response where
  payload := Batch.Reassembly.deflatedGroup (Row.bareRow 1 9 0 0) Batch.Reassembly.deflatedRow

/-- The event with this reply to its request, if it is one. -/
def repliedWith (response : Envelope.Response) : Event → Event
  | ⟨.send call, _⟩ => ⟨.send call, ⟨some 0, .ok response⟩⟩
  | event => event

theorem deflated_row_read :
    (∃ history final, Yields FrameReader.readGroup
      { stream := { arrivals := [⟨some 0, .ok deflatedReply⟩] } } history
        (.ok (some (Row.bareRow 1 9 0 0))) final) ∧
    ∃ history, (bareClient.execute touchOnce).run.Ends history
        (.error { Fault.ofCode .timeout with iteration := some 1 }) ∧
      (attemptsIn history).map (·.reply.value) = [.ok deflatedReply] := by
  obtain ⟨-, hread, hexecute⟩ := packing_makes_no_difference
  have hinflate : Zlib.inflate Batch.Reassembly.deflatedRow =
      some (Group.plain (Row.bareRow 1 9 0 0)) := by
    decide +kernel
  have hdeflated : Group.Packs
      (Batch.Reassembly.deflatedGroup (Row.bareRow 1 9 0 0) Batch.Reassembly.deflatedRow)
      (Row.bareRow 1 9 0 0) :=
    Batch.Reassembly.packs_deflatedGroup (by decide) (by decide) hinflate
  have hrepacked : (oneRow (Row.bareRow 1 9 0 0)).Repacked deflatedReply := by
    refine ⟨rfl, Group.plain (Row.bareRow 1 9 0 0), _, _, [], ?_, hdeflated, ?_, ?_⟩
    · exact Group.packs_plain (by decide)
    · exact (List.append_nil _).symm
    · exact (List.append_nil _).symm
  constructor
  · obtain ⟨history, hprompt, hends⟩ := ends_undisturbed (FrameReader.readGroup.run.run
      { stream := { arrivals := [⟨some 0, .ok deflatedReply⟩] } })
    have hbytes : FrameReader.payload [⟨some 0, .ok deflatedReply⟩] =
        [] ++ (deflatedReply.payload ++ []) := by
      rw [List.nil_append]
      rfl
    have hlast : FrameReader.reachesLast [⟨some 0, .ok deflatedReply⟩] = true := by
      simp [FrameReader.reachesLast, deflatedReply]
    have hbegun : FrameReader.Reached [⟨some 0, .ok deflatedReply⟩] 0 []
        { stream := { arrivals := [⟨some 0, .ok deflatedReply⟩] } } :=
      FrameReader.reached_beginning { arrivals := [⟨some 0, .ok deflatedReply⟩] } {} {}
    generalize (FrameReader.readGroup.run.run
      { stream := { arrivals := [⟨some 0, .ok deflatedReply⟩] } }).undisturbed = read at hends
    obtain ⟨result, final⟩ := read
    obtain ⟨rfl, -⟩ := hread _ _ _ _ _ _ _ _ _ _ hdeflated hlast hbytes hbegun hprompt hends
    exact ⟨history, final, hends⟩
  · let plainly : Surroundings := alwaysReplying (oneRow (Row.bareRow 1 9 0 0))
    have halike : ∀ past question, Event.Alike Ask.Repacked ⟨question, plainly past question⟩
        (repliedWith deflatedReply ⟨question, plainly past question⟩) := by
      intro past question
      cases question with
      | send call =>
          exact .intro (.inr ⟨some 0, oneRow (Row.bareRow 1 9 0 0), deflatedReply, rfl, rfl, hrepacked⟩)
      | _ => exact .intro rfl
    obtain ⟨history, hhistory, hall, hends⟩ := ends_runIn_where
      (P := fun event => Event.Alike Ask.Repacked event (repliedWith deflatedReply event))
      plainly halike (bareClient.execute touchOnce).run []
    refine ⟨history.map (repliedWith deflatedReply), ?_, ?_⟩
    · have hran : ((bareClient.execute touchOnce).run.runIn plainly []).1 =
          .error { Fault.ofCode .timeout with iteration := some 1 } :=
        eq_error_of_faultOf? (by decide +kernel)
      rw [hran] at hends
      refine hexecute _ _ _ _ _ ?_ hends
      exact List.forall₂_map_right_iff.mpr (List.forall₂_same.mpr hall)
    · rw [← List.nil_append history, ← hhistory]
      decide +kernel

end Client
end RecordGateway
