import RecordGateway.Proofs.Client.Attempts
import RecordGateway.Proofs.Client.Batch

/-!
Batches that never leave. A batch that fails has handed its request over, or the encoder has refused it, or
the client could not say who it is, or the call was cancelled before (`openBatch_sent`); the history tells
which. The sweep after a failure does not ask: whoever has heard nothing of a write counts it as in doubt, also
of one that was never asked for (`batch_unsent`).
-/

namespace RecordGateway.Client

open Batch RecordGateway.Flow

variable {client : Client} {method : Method} {request : Envelope.Request} {limits : Limits} {policy : Policy}
  {slots result : List Slot} {history front back : History} {fault : Fault}

/-- Why a call has handed nothing over, as its history tells: its version may not stand in a header, it has
got no token that may, or it was cancelled. -/
inductive Unsent (client : Client) (scope : Scope) (history : History) : Fault → Prop where
  | version : isHeaderText client.config.clientVersion = false →
      Unsent client scope history
        (.client "client version is not a valid header" ["failed to parse metadata value"])
  | credential {limits : Limits} {answer : Credential.Answer} {fault : Fault} :
      (⟨.credential limits, answer⟩ : Event) ∈ history →
      (∀ text, answer = .token text → isHeaderText ("Bearer " ++ text) = false) →
      Unsent client scope history fault
  | cancelled : (⟨.isCancelled scope, true⟩ : Event) ∈ history →
      Unsent client scope history .callCancelled

theorem Unsent.mono {scope : Scope} {wider : History} (h : Unsent client scope history fault)
    (hwider : history ⊆ wider) : Unsent client scope wider fault := by
  cases h with
  | version hversion => exact .version hversion
  | credential hmem hunusable => exact .credential (hwider hmem) hunusable
  | cancelled hmem => exact .cancelled (hwider hmem)

theorem authorization_unsent {scope : Scope}
    (h : (client.authorization limits).run.Ends history (.error fault)) :
    Unsent client scope history fault := by
  unfold authorization at h
  split at h
  · obtain ⟨-, hfault⟩ := ends_pure_iff.mp h
    cases hfault
  · obtain ⟨answer, rest, rfl, hrest⟩ := ends_run_query_bind_iff.mp h
    refine .credential List.mem_cons_self ?_
    rintro text rfl
    dsimp only at hrest
    split at hrest
    · next hinvalid => exact (Bool.not_eq_true' _).mp hinvalid
    · obtain ⟨-, hfault⟩ := ends_pure_iff.mp hrest
      cases hfault

theorem prepare_unsent {scope : Scope}
    (h : (client.prepare method request limits).run.Ends history (.error fault)) :
    Unsent client scope history fault := by
  unfold prepare at h
  obtain ⟨now, rest, rfl, hrest⟩ := ends_run_query_bind_iff.mp h
  dsimp only at hrest
  split at hrest
  · next hversion =>
      obtain ⟨-, hfault⟩ := ends_pure_iff.mp hrest
      obtain rfl := Except.error.inj hfault
      exact .version ((Bool.not_eq_true' _).mp hversion)
  · rcases ends_run_bind_iff.mp hrest with ⟨given, hauthorization, hfault⟩ | ⟨_, _, _, -, -, hmade⟩
    · obtain rfl := Except.error.inj hfault
      exact (authorization_unsent hauthorization).mono (List.subset_cons_self _ _)
    · obtain ⟨-, hfault⟩ := ends_pure_iff.mp hmade
      cases hfault

theorem callsIn_ne_nil_of_subset {wider : History} (hwider : history ⊆ wider)
    (h : callsIn history ≠ []) : callsIn wider ≠ [] := by
  obtain ⟨call, hcall⟩ := List.exists_mem_of_ne_nil _ h
  obtain ⟨event, hmem, hevent⟩ := List.mem_filterMap.mp hcall
  exact List.ne_nil_of_mem (List.mem_filterMap.mpr ⟨event, hwider hmem, hevent⟩)

theorem stream_sent {outcome : Except Fault FrameStream}
    (h : (client.stream method request limits).run.Ends history outcome) :
    (∃ fault, outcome = .error fault ∧ Unsent client limits.scope history fault) ∨
      callsIn history ≠ [] := by
  unfold stream at h
  rcases ends_run_bind_iff.mp h with
    ⟨fault, hprepare, rfl⟩ | ⟨front, back, call, rfl, -, hexchange⟩
  · exact .inl ⟨fault, rfl, prepare_unsent hprepare⟩
  cases exchange_cases hexchange with
  | refused =>
      refine .inl ⟨_, rfl, .cancelled (List.mem_append_right _ List.mem_cons_self)⟩
  | waited hhand _ =>
      obtain rfl := ends_query_iff.mp hhand
      rw [callsIn_append]
      exact .inr (List.append_ne_nil_of_right_ne_nil _ (List.cons_ne_nil call _))

/-- Why a batch has handed nothing over: it cannot be encoded, or there is a reason for the call. -/
def BatchUnsent (client : Client) (policy : Policy) (slots : List Slot) (history : History)
    (fault : Fault) : Prop :=
  client.framer.batch policy (slots.map fun slot => (slot.key, slot.action)) = .error fault ∨
    Unsent client client.scope history fault

theorem openBatch_sent {outcome : Except Fault FrameReader}
    (h : (client.openBatch policy slots).run.Ends history outcome) :
    (∃ fault, outcome = .error fault ∧ BatchUnsent client policy slots history fault) ∨
      callsIn history ≠ [] := by
  unfold openBatch at h
  rcases ends_run_bind_iff.mp h with
    ⟨fault, hframer, rfl⟩ | ⟨front, rest, payload, rfl, hframer, hrest⟩
  · obtain ⟨-, hfault⟩ := ends_run_lift_iff.mp hframer
    exact .inl ⟨fault, rfl, .inl hfault.symm⟩
  obtain ⟨rfl, -⟩ := ends_run_lift_iff.mp hframer
  obtain ⟨start, begun, rfl, hbegun⟩ := ends_run_query_bind_iff.mp hrest
  obtain ⟨id, later, rfl, hlater⟩ := ends_run_query_bind_iff.mp hbegun
  have hsubset : later ⊆ [] ++ ⟨.clock, start⟩ :: ⟨.drawId, id⟩ :: later := fun event hmem =>
    List.mem_cons_of_mem _ (List.mem_cons_of_mem _ hmem)
  have hsent : callsIn ([] ++ ⟨.clock, start⟩ :: ⟨.drawId, id⟩ :: later) = callsIn later := rfl
  rw [hsent]
  rcases ends_run_bind_iff.mp hlater with
    ⟨fault, hstream, rfl⟩ | ⟨opening, last, stream, rfl, hstream, -⟩
  · refine (stream_sent hstream).imp_left ?_
    rintro ⟨given, hgiven, hunsent⟩
    obtain rfl := Except.error.inj hgiven
    exact ⟨fault, rfl, .inr (hunsent.mono hsubset)⟩
  · rcases stream_sent hstream with ⟨fault, hfault, -⟩ | hsent
    · cases hfault
    · exact .inr (callsIn_ne_nil_of_subset (List.subset_append_left _ _) hsent)

theorem batch_sent {outcome : Except Fault Bool}
    (h : (client.batch policy slots).Ends history (outcome, result)) (hsome : slots ≠ []) :
    (∃ fault, outcome = .error fault ∧ BatchUnsent client policy slots history fault) ∨
      callsIn history ≠ [] := by
  have hasked : (slots.map Slot.reset).map (fun slot => (slot.key, slot.action)) =
      slots.map fun slot => (slot.key, slot.action) := List.map_map
  unfold batch at h
  dsimp only at h
  rw [if_neg (by simpa using hsome)] at h
  obtain ⟨exchanging, rest, ⟨given, tally⟩, rfl, hexchange, hrest⟩ := ends_bind_iff.mp h
  unfold exchangeBatch at hexchange
  obtain ⟨opening, reading, opened, rfl, hopening, hreading⟩ := ends_bind_iff.mp hexchange
  rcases openBatch_sent hopening with ⟨fault, rfl, hunsent⟩ | hsent
  · obtain ⟨rfl, hgiven⟩ := ends_pure_iff.mp hreading
    obtain ⟨rfl, -⟩ := Prod.mk.inj hgiven
    obtain ⟨rfl, houtcome⟩ := ends_pure_iff.mp hrest
    obtain ⟨rfl, -⟩ := Prod.mk.inj houtcome
    rw [BatchUnsent, hasked] at hunsent
    rw [List.append_nil, List.append_nil]
    exact .inl ⟨fault, rfl, hunsent⟩
  · rw [List.append_assoc]
    exact .inr (callsIn_ne_nil_of_subset (List.subset_append_left _ _) hsent)

theorem broughtBytes_of_unsent (h : callsIn history = []) : broughtBytes history = [] := by
  induction history with
  | nil => rfl
  | cons event later ih =>
      obtain ⟨question, answer⟩ := event
      cases question with
      | openStream call => cases h
      | send call => cases h
      | _ => exact ih h

/-- A batch that fails and has handed nothing over has a reason for that, and leaves all slots without an
outcome. No write can have been applied; yet each slot that writes is in doubt, so that no slot is in doubt
only where none writes. -/
theorem batch_unsent (h : (client.batch policy slots).Ends history (.error fault, result))
    (hunsent : callsIn history = []) :
    BatchUnsent client policy slots history fault ∧
      result = slots.map (fun slot => { slot.reset with inDoubt := slot.hasWrite }) ∧
      ((∀ slot ∈ result, slot.inDoubt = false) ↔ ∀ slot ∈ slots, slot.hasWrite = false) := by
  have hnothing : ∀ index, arrivedFor slots.length history index = none := by
    intro index
    rw [arrivedFor, arrivedRows, broughtBytes_of_unsent hunsent]
    rfl
  have hresult : result = slots.map fun slot => { slot.reset with inDoubt := slot.hasWrite } := by
    rw [(batch_slots_of_error h).1]
    refine List.ext_getElem? fun index => ?_
    rw [List.getElem?_mapIdx, List.getElem?_map]
    simp only [hnothing]
  refine ⟨?_, hresult, ?_⟩
  · have hsome : slots ≠ [] := by
      rintro rfl
      cases (ends_pure_iff.mp h).2
    rcases batch_sent h hsome with ⟨given, hgiven, hreason⟩ | hsent
    · obtain rfl := Except.error.inj hgiven
      exact hreason
    · exact absurd hunsent hsent
  · rw [hresult, List.forall_mem_map]

/-- A client whose encoder refuses every batch. -/
def unframedClient : Client :=
  { bareClient with framer := { bareClient.framer with batch := fun _ _ => .error (.ofKind .serialize) } }

/-- Two writes and a read that are refused before anything leaves. -/
theorem batch_unframed :
    (unframedClient.batch {} threeSlots).Ends [] (.error (.ofKind .serialize),
      [{ (Slot.write {} []) with inDoubt := true }, Slot.read {} none,
        { (Slot.delete {}) with inDoubt := true }]) :=
  .done _

theorem unframed_writes_in_doubt :
    ∃ history fault result, (unframedClient.batch {} threeSlots).Ends history (.error fault, result) ∧
      callsIn history = [] ∧ BatchUnsent unframedClient {} threeSlots history fault ∧
      ¬ ∀ slot ∈ result, slot.inDoubt = false := by
  obtain ⟨hreason, -, hdoubt⟩ := batch_unsent batch_unframed rfl
  refine ⟨_, _, _, batch_unframed, rfl, hreason, fun hsure => ?_⟩
  exact absurd (hdoubt.mp hsure _ List.mem_cons_self) (by decide)

/-- A batch that never left is not always without doubt. -/
theorem unsent_batch_in_doubt :
    ¬ ∀ (client : Client) (policy : Policy) (slots : List Slot) (history : History) (fault : Fault)
        (result : List Slot),
      (client.batch policy slots).Ends history (.error fault, result) → callsIn history = [] →
      ∀ slot ∈ result, slot.inDoubt = false := by
  intro hall
  cases hall _ _ _ _ _ _ batch_unframed rfl _ List.mem_cons_self

end RecordGateway.Client
