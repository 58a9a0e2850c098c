import RecordGateway.Client.Batch
import RecordGateway.Client.Task
import RecordGateway.Proofs.Client.Doubt
import RecordGateway.Proofs.FrameReader.Traces

/-!
The traces of calls. Every call of a client is put together from handing over single requests, waiting for
frames, pauses, and questions that concern nobody else. A mark that these leave on a history (`Marks`) is
therefore left by commands with all their attempts, by batches, by tasks, and by all rounds of a record set
(`Marks.leaves_execute`, `Marks.always_batch`, `Marks.leaves_awaitTask`, `Marks.always_begun`).
-/

namespace RecordGateway

open RecordGateway.Flow FrameReader
open RecordGateway.Partition (Tracker)

/-- Whether a question concerns neither the gateway nor the access token, waits for nothing, and puts no end
on the queue of a set. -/
def Ask.IsPlain : Ask → Prop
  | .clock | .drawId | .drawTaskId | .isCancelled _ | .offer _ (.row ..) => True
  | _ => False

namespace Client

/-- A mark that the parts of a client's calls under a scope leave on histories. -/
structure Marks (client : Client) (scope : Scope) (mark : History → Prop) : Prop
    extends Lasting fun _ => mark where
  plain : ∀ event : Event, event.question.IsPlain → mark [event]
  pause : ∀ now due waited, mark [⟨.clock, now⟩, ⟨.wait due {}, waited⟩]
  frame : ∀ limits : Limits, limits.scope = scope → ∀ due waited, mark [⟨.wait due limits, waited⟩]
  unary : ∀ method request (limits : Limits), limits.scope = scope →
    (client.unary method request limits).run.Always mark
  stream : ∀ method request (limits : Limits), limits.scope = scope →
    (client.stream method request limits).run.Always mark

/-- The frames of the answer to a batch are waited for under the scope of the client. -/
theorem scope_openBatch {client : Client} {policy : Policy} {slots : List Batch.Slot}
    {history : History} {reader : FrameReader}
    (h : (client.openBatch policy slots).run.Ends history (.ok reader)) :
    reader.limits.scope = client.scope := by
  unfold openBatch at h
  rcases ends_run_bind_iff.mp h with ⟨_, _, hfault⟩ | ⟨_, _, payload, -, -, hrest⟩
  · cases hfault
  obtain ⟨now, rest, -, hrest⟩ := ends_run_query_bind_iff.mp hrest
  obtain ⟨id, rest, -, hrest⟩ := ends_run_query_bind_iff.mp hrest
  rcases ends_run_bind_iff.mp hrest with ⟨_, _, hfault⟩ | ⟨_, _, stream, -, -, hlast⟩
  · cases hfault
  obtain ⟨-, hreader⟩ := ends_pure_iff.mp hlast
  obtain rfl := Except.ok.inj hreader
  rfl

/-- Hands a statement over as the task with a given number. -/
def submitTask (client : Client) (policy : Policy) (statement : Statement) (taskId : UInt64) :
    Making Task := do
  let message ← { statement with taskId }.message client.framer
  let id ← ask .drawId
  let now ← ask .clock
  let response ← client.unary .backgroundExecute
    { id
      iteration := 1
      backgroundTask := some { policy := some policy.copies, statement := some message } }
    { deadline := policy.deadline now, scope := client.scope, isWrite := true }
  acceptResponse response true
  return { id := taskId, isScan := statement.isScan }

/-- A statement that does something is handed over under its own number, or under one drawn for it. -/
theorem startTask_eq (client : Client) (policy : Policy) (statement : Statement) :
    client.startTask policy statement =
      if statement.function.isNone ∧ statement.operations.isEmpty then
        throw (.client "background execution needs a UDF or operations")
      else if statement.taskId = 0 then
        ask .drawTaskId >>= client.submitTask policy statement
      else client.submitTask policy statement statement.taskId := by
  unfold startTask
  dsimp only
  split
  · rfl
  · split
    · rfl
    · rfl

/-- A record set that has begun repeats one request. -/
theorem BeginsSet.repeats {client : Client} {set : Nat} {making : Making Stream} {history : History}
    {begun : Stream} (hbegins : BeginsSet client set making)
    (h : making.run.Ends history (.ok begun)) : ∃ tracker, Repeats client set tracker begun := by
  cases hbegins with
  | query policy statement filter =>
      rcases query_cases h with ⟨_, hfault, -⟩ | ⟨tracker, _, hbegun, -, hrepeats⟩
      · cases hfault
      · obtain rfl := Except.ok.inj hbegun
        exact ⟨tracker, hrepeats⟩
  | scan policy ns setName bins filter =>
      rcases scan_cases h with ⟨_, hfault, -⟩ | ⟨tracker, _, hbegun, -, hrepeats⟩
      · cases hfault
      · obtain rfl := Except.ok.inj hbegun
        exact ⟨tracker, hrepeats⟩

/-- Beginning a record set hands nothing over. -/
theorem leaves_begin {client : Client} {set : Nat} {making : Making Stream} {mark : History → Prop}
    (h : Lasting fun _ => mark) (hplain : ∀ event : Event, event.question.IsPlain → mark [event])
    (hbegins : BeginsSet client set making) : Leaves (fun _ => mark) making := by
  have hask : ∀ {α : Type} {question : Ask} {f : question.Answer → Making α}, question.IsPlain →
      (∀ answer, Leaves (fun _ => mark) (f answer)) → Leaves (fun _ => mark) (ask question >>= f) :=
    fun hquestion hf => h.leaves_query_bind (fun answer => hplain ⟨_, answer⟩ hquestion) hf
  cases hbegins with
  | query policy statement filter =>
      refine h.leaves_bind (h.leaves_lift _) fun tracker => h.leaves_bind (h.leaves_lift _) fun _ => ?_
      exact hask trivial fun id => hask trivial fun now => h.leaves_pure _
  | scan policy ns setName bins filter =>
      refine h.leaves_bind (h.leaves_lift _) fun tracker => ?_
      exact hask trivial fun id => hask trivial fun now => h.leaves_pure _

namespace Marks

variable {client : Client} {scope : Scope} {mark : History → Prop} {limits : Limits}
  (h : client.Marks scope mark)
include h

theorem watches (hlimits : limits.scope = scope) : Watches limits fun _ => mark where
  toLasting := h.toLasting
  awaited := by
    intro succeeded front due waited hfront _
    have hclocks : mark front := by
      induction front with
      | nil => exact h.nil true
      | cons event front ih =>
          rw [List.forall_mem_cons] at hfront
          have hplain : event.question.IsPlain := by
            rw [hfront.1]
            trivial
          exact @Lasting.append _ h.toLasting true [event] front (h.plain event hplain) (ih hfront.2)
    exact @Lasting.append _ h.toLasting true _ _ hclocks (h.frame limits hlimits due waited)

theorem always_sleep (span : Time) : (sleep span).Always mark := by
  intro history value hends
  obtain ⟨now, rest, rfl, hrest⟩ := ends_ask_iff.mp hends
  obtain ⟨waited, last, rfl, hlast⟩ := ends_ask_iff.mp hrest
  obtain ⟨rfl, -⟩ := ends_pure_iff.mp hlast
  exact h.pause now _ waited

theorem leaves_sleep (span : Time) : Leaves (fun _ => mark) (ExceptT.lift (sleep span)) := by
  intro history result hends
  obtain ⟨front, back, waited, rfl, hfront, hback⟩ := ends_bind_iff.mp hends
  obtain ⟨rfl, -⟩ := ends_pure_iff.mp hback
  rw [List.append_nil]
  exact h.always_sleep span _ _ hfront

theorem leaves_ask {α : Type} {question : Ask} {f : question.Answer → Making α}
    (hplain : question.IsPlain) (hf : ∀ answer, Leaves (fun _ => mark) (f answer)) :
    Leaves (fun _ => mark) (ask question >>= f) :=
  h.leaves_query_bind (fun answer => h.plain ⟨question, answer⟩ hplain) hf

/-! ### Single commands -/

theorem leaves_attempt (hscope : client.scope = scope) (command : Command) (payload : Bytes)
    (id : UInt32) (iteration : Nat) (total : Option Time) :
    Leaves (fun _ => mark) (client.attempt command payload id iteration total) := by
  unfold attempt
  refine h.leaves_ask trivial fun now => ?_
  exact h.leaves_bind (h.unary _ _ _ hscope) fun response => h.leaves_lift _

/-- The induction is on the retries that are left. -/
theorem always_attempts (hscope : client.scope = scope) (command : Command) (payload : Bytes)
    (id : UInt32) (total : Option Time) (retries iteration : Nat) (doubt : Bool) :
    (client.attempts command payload id total retries iteration doubt).Always mark := by
  induction retries generalizing iteration doubt with
  | zero =>
      unfold attempts
      refine h.always_bind (h.leaves_attempt hscope _ _ _ _ _) fun outcome => ?_
      cases outcome <;> exact h.always_pure _
  | succ retries ih =>
      unfold attempts
      refine h.always_bind (h.leaves_attempt hscope _ _ _ _ _) fun outcome => ?_
      cases outcome with
      | ok output => exact h.always_pure _
      | error fault =>
          refine h.always_bind (always_query fun now => h.plain ⟨.clock, now⟩ trivial) fun now => ?_
          split
          · dsimp only
            split
            · exact h.always_bind (h.always_sleep _) fun _ => ih _ _
            · exact ih _ _
          · exact h.always_pure _

theorem leaves_execute (hscope : client.scope = scope) (command : Command) :
    Leaves (fun _ => mark) (client.execute command) := by
  unfold execute
  refine h.leaves_bind (h.leaves_lift _) fun payload => ?_
  refine h.leaves_ask trivial fun now => h.leaves_ask trivial fun id => ?_
  exact h.always_attempts hscope _ _ _ _ _ _ _

/-! ### Batches -/

theorem leaves_openBatch (hscope : client.scope = scope) (policy : Policy) (slots : List Batch.Slot) :
    Leaves (fun _ => mark) (client.openBatch policy slots) := by
  unfold openBatch
  refine h.leaves_bind (h.leaves_lift _) fun payload => ?_
  refine h.leaves_ask trivial fun now => h.leaves_ask trivial fun id => ?_
  exact h.leaves_bind (h.stream _ _ _ hscope) fun stream => h.leaves_pure _

theorem always_exchangeBatch (hscope : client.scope = scope) (policy : Policy)
    (slots : List Batch.Slot) : (client.exchangeBatch policy slots).Always mark := by
  intro history outcome hends
  unfold exchangeBatch at hends
  obtain ⟨front, back, opened, rfl, hopen, hback⟩ := ends_bind_iff.mp hends
  refine @Lasting.append _ h.toLasting true _ _ (h.leaves_openBatch hscope policy slots _ _ hopen) ?_
  cases opened with
  | error fault => exact h.always_pure _ _ _ hback
  | ok reader =>
      obtain ⟨reading, last, ⟨result, state⟩, rfl, hreading, hlast⟩ := ends_bind_iff.mp hback
      have hlimits : reader.limits.scope = scope := (scope_openBatch hopen).trans hscope
      have hread := (h.watches hlimits).traces_reassembly (.identity slots.length)
        ⟨reader, { slots }⟩ reading result state rfl hreading
      exact @Lasting.append _ h.toLasting true _ _ hread.2 (h.always_pure _ _ _ hlast)

theorem always_batch (hscope : client.scope = scope) (policy : Policy) (slots : List Batch.Slot) :
    (client.batch policy slots).Always mark := by
  unfold batch
  dsimp only
  split
  · exact h.always_pure _
  · refine h.always_bind (h.always_exchangeBatch hscope policy _) fun answer => ?_
    rcases answer with ⟨result | result, tally⟩ <;> exact h.always_pure _

/-! ### Tasks -/

theorem leaves_startTask (hscope : client.scope = scope) (policy : Policy) (statement : Statement) :
    Leaves (fun _ => mark) (client.startTask policy statement) := by
  have hsubmit : ∀ taskId, Leaves (fun _ => mark) (client.submitTask policy statement taskId) := by
    intro taskId
    refine h.leaves_bind (h.leaves_lift _) fun message => ?_
    refine h.leaves_ask trivial fun id => h.leaves_ask trivial fun now => ?_
    refine h.leaves_bind (h.unary _ _ _ hscope) fun response => ?_
    exact h.leaves_bind (h.leaves_lift _) fun _ => h.leaves_pure _
  rw [startTask_eq]
  split
  · exact h.leaves_throw _
  · split
    · exact @leaves_ask _ _ _ h _ .drawTaskId _ trivial hsubmit
    · exact hsubmit _

theorem leaves_taskStatus (hscope : client.scope = scope) (task : Task) :
    Leaves (fun _ => mark) (client.taskStatus task) := by
  unfold taskStatus
  refine h.leaves_ask trivial fun id => h.leaves_ask trivial fun now => ?_
  refine h.leaves_bind (h.unary _ _ _ hscope) fun response => ?_
  exact h.leaves_bind (h.leaves_lift _) fun _ => h.leaves_pure _

/-- The induction is on the questions that are left. -/
theorem leaves_pollTask (hscope : client.scope = scope) (task : Task) (interval : Time)
    (deadline : Option Time) (questions : Nat) :
    Leaves (fun _ => mark) (client.pollTask task interval deadline questions) := by
  induction questions with
  | zero => exact h.leaves_pure _
  | succ questions ih =>
      refine h.leaves_bind (h.leaves_taskStatus hscope task) fun status => ?_
      cases status with
      | complete => exact h.leaves_pure _
      | notFound => exact h.leaves_throw _
      | inProgress =>
          refine h.leaves_ask trivial fun now => ?_
          dsimp only
          split
          · exact h.leaves_bind (h.leaves_throw _) fun _ =>
              h.leaves_bind (h.leaves_sleep _) fun _ => ih
          · exact h.leaves_bind (h.leaves_sleep _) fun _ => ih

theorem leaves_awaitTask (hscope : client.scope = scope) (task : Task) (interval : Time)
    (timeout : Option Time) (questions : Nat) :
    Leaves (fun _ => mark) (client.awaitTask task interval timeout questions) :=
  h.leaves_ask trivial fun _ => h.leaves_pollTask hscope task _ _ _

/-! ### Record sets -/

/-- Rounds ask for a stream and read it, with pauses in between. The induction is on the retries that are
left. -/
theorem always_rounds {producer : RecordSet.Producer} (hscope : .recordSet producer.set = scope)
    (hopen : ∀ filter iteration, (producer.openRound filter iteration).Always mark) (retries : Nat)
    (tracker : Tracker) : (producer.rounds retries tracker).Always mark := by
  have hround : ∀ tracker filter, (producer.round tracker filter).Always mark := by
    intro tracker filter
    refine h.always_bind (hopen _ _) fun opened => ?_
    cases opened with
    | error fault => exact h.always_pure _
    | ok stream =>
        intro history value hends
        obtain ⟨reading, last, ⟨result, state⟩, rfl, hreading, hlast⟩ := ends_bind_iff.mp hends
        have hwatches : Watches producer.limits fun _ => mark := h.watches hscope
        have hread := hwatches.traces_round (fun key record isRead => h.plain _ trivial) _ reading
          result state rfl hreading
        exact @Lasting.append _ h.toLasting true _ _ hread.2 (h.always_pure _ _ _ hlast)
  have hrounds : ∀ retries, (∀ last, (producer.goOn retries last).Always mark) → ∀ tracker,
      (producer.rounds retries tracker).Always mark := by
    intro retries hgoOn tracker
    rw [RecordSet.Producer.rounds_eq]
    refine h.always_bind (always_query fun answer => h.plain ⟨.isCancelled _, answer⟩ trivial)
      fun cancelled => ?_
    cases cancelled with
    | true => exact h.always_pure _
    | false =>
        refine h.always_bind (hround _ _) ?_
        rintro ⟨fault | roundEnd, last⟩
        · dsimp only
          split
          · exact hgoOn _
          · exact h.always_pure _
        · cases roundEnd with
          | finished => exact hgoOn _
          | limitReached | abandoned => exact h.always_pure _
  induction retries generalizing tracker with
  | zero =>
      refine hrounds 0 (fun last => ?_) tracker
      unfold RecordSet.Producer.goOn
      split <;> exact h.always_pure _
  | succ retries ih =>
      refine hrounds (retries + 1) (fun last => ?_) tracker
      unfold RecordSet.Producer.goOn
      split
      · exact h.always_pure _
      · dsimp only
        split
        · exact h.always_bind (h.always_sleep _) fun _ => ih _
        · exact ih _

theorem always_begun {set : Nat} {making : Making Stream} {history : History} {begun : Stream}
    (hscope : .recordSet set = scope) (hbegins : BeginsSet client set making)
    (hbegun : making.run.Ends history (.ok begun)) (retries : Nat) (tracker : Tracker) :
    (begun.producer.rounds retries tracker).Always mark := by
  obtain ⟨_, ⟨-⟩⟩ := hbegins.repeats hbegun
  exact h.always_rounds hscope (fun _ _ => h.stream _ _ _ hscope) retries tracker

end Marks
end Client
end RecordGateway
