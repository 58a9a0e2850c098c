import RecordGateway.Client.Task
import RecordGateway.Proofs.Client.Deadline

/-!
Questions for the status of a task. A question draws the number of its request, and then makes one call
(`taskStatus_cases`); so each question shows one such draw and hands one request over, or none and is not answered
(`OncePerQuestion`). Of what a question asks, a client waits for nothing before the draw, and without credentials
for nothing before it hands the request over.
-/

namespace RecordGateway

open Envelope (TaskStatus)

/-- Whether the event draws the number of a request. -/
def Event.draws : Event → Bool
  | ⟨.drawId, _⟩ => true
  | _ => false

/-- Whether the event hands a request over that has one response. -/
def Event.hands : Event → Bool
  | ⟨.send _, _⟩ => true
  | _ => false

theorem Event.not_waits_of_draws {event : Event} (h : event.draws = true) : ¬ event.question.Waits := by
  obtain ⟨question, answer⟩ := event
  cases question with
  | drawId => exact id
  | _ => cases h

namespace Client

open RecordGateway.Flow Session

variable {client : Client} {task : Task} {history : History} {mark : Event → Bool}

/-! ### One call -/

/-- A question for a status draws the number of its request and asks for the time, and then makes one call. -/
theorem taskStatus_cases {outcome : Except Fault TaskStatus}
    (h : (client.taskStatus task).run.Ends history outcome) :
    ∃ id start request limits rest received,
      history = ⟨.drawId, id⟩ :: ⟨.clock, start⟩ :: rest ∧
      (client.unary .backgroundTaskStatus request limits).run.Ends rest received ∧
      outcome = received >>= fun response =>
        acceptResponse response false >>= fun _ => .ok (.ofResponse response) := by
  unfold taskStatus at h
  obtain ⟨id, drawn, rfl, hdrawn⟩ := ends_run_query_bind_iff.mp h
  obtain ⟨start, rest, rfl, hrest⟩ := ends_run_query_bind_iff.mp hdrawn
  rcases ends_run_bind_iff.mp hrest with ⟨fault, hunary, rfl⟩ | ⟨calling, back, response, rfl, hunary, hback⟩
  · exact ⟨id, start, _, _, rest, _, rfl, hunary, rfl⟩
  have hlast : back = [] ∧
      outcome = acceptResponse response false >>= fun _ => .ok (.ofResponse response) := by
    cases haccept : acceptResponse response false <;>
      · rw [haccept] at hback
        exact ends_pure_iff.mp hback
  obtain ⟨rfl, rfl⟩ := hlast
  rw [List.append_nil]
  exact ⟨id, start, _, _, calling, _, rfl, hunary, rfl⟩

/-! ### One event of a kind -/

/-- Each question has one event of a kind at most, and exactly one if it is answered; between the questions
there is none. -/
structure OncePerQuestion (client : Client) (task : Task) (mark : Event → Bool) : Prop where
  at_most {history : History} {outcome : Except Fault TaskStatus} :
    (client.taskStatus task).run.Ends history outcome → history.countP mark ≤ 1
  answered {history : History} {status : TaskStatus} :
    (client.taskStatus task).run.Ends history (.ok status) → history.countP mark = 1
  clock (now : Time) : mark ⟨.clock, now⟩ = false
  wait (due : Option Time) (limits : Limits) (waited : Waited) : mark ⟨.wait due limits, waited⟩ = false

theorem countP_draws {outcome : Except Fault TaskStatus}
    (h : (client.taskStatus task).run.Ends history outcome) : history.countP Event.draws = 1 := by
  obtain ⟨id, start, request, limits, rest, received, rfl, hunary, -⟩ := taskStatus_cases h
  have hrest : rest.countP Event.draws = 0 := by
    rw [List.countP_eq_zero]
    intro event hmem
    have hasked := asks_unary _ _ hunary event hmem
    obtain ⟨question, answer⟩ := event
    cases question with
    | drawId => exact hasked.elim
    | _ => exact Bool.false_ne_true
  rw [List.countP_cons, List.countP_cons, hrest]
  rfl

theorem once_draws (client : Client) (task : Task) : OncePerQuestion client task Event.draws where
  at_most h := Nat.le_of_eq (countP_draws h)
  answered h := countP_draws h
  clock _ := rfl
  wait _ _ _ := rfl

/-- A kind of event that only the handing over of a request can be, and each one is to which there is a reply. -/
structure OfReplies (mark : Event → Bool) : Prop where
  isLocal (event : Event) : event.question.IsLocal → mark event = false
  reply (call : Call) (delay : Option Time) (response : Envelope.Response) :
    mark ⟨.send call, ⟨delay, .ok response⟩⟩ = true

theorem OfReplies.countP_of_local (hmark : OfReplies mark)
    (hlocal : ∀ event ∈ history, event.question.IsLocal) : history.countP mark = 0 := by
  rw [List.countP_eq_zero]
  intro event hmem
  rw [hmark.isLocal event (hlocal event hmem)]
  exact Bool.false_ne_true

theorem OfReplies.countP_of_shows {exchange : Exchange} (hmark : OfReplies mark)
    (h : Shows exchange history) :
    history.countP mark = [⟨.send exchange.call, exchange.reply⟩].countP mark := by
  obtain @⟨front, renewing, now, due, hfront, hrenewal⟩ := h
  have hrest : List.countP mark (⟨.clock, now⟩ :: ⟨.wait due exchange.limits, exchange.waited⟩ :: renewing) =
      0 := by
    refine hmark.countP_of_local ?_
    simp only [List.forall_mem_cons]
    exact ⟨trivial, trivial, hrenewal.isLocal⟩
  rw [List.countP_append, hmark.countP_of_local hfront, List.countP_cons, hrest, List.countP_singleton,
    Nat.zero_add, Nat.zero_add]

theorem value_of_received {exchange : Exchange} {reporter : Fault.Reporter} {response : Envelope.Response}
    (h : exchange.received reporter = .ok response) : exchange.reply.value = .ok response := by
  obtain ⟨call, ⟨delay, value⟩, limits, waited⟩ := exchange
  cases waited with
  | cancelled | timedOut => cases h
  | arrived =>
      cases value with
      | ok value =>
          cases h
          rfl
      | error status => cases h

/-- A question hands one request over, or none and is not answered. -/
theorem OfReplies.countP_cases (hmark : OfReplies mark) {outcome : Except Fault TaskStatus}
    (h : (client.taskStatus task).run.Ends history outcome) :
    (history.countP mark = 0 ∧ ∃ fault, outcome = .error fault) ∨
      ∃ call reply, history.countP mark = [⟨.send call, reply⟩].countP mark ∧
        ∀ status, outcome = .ok status → ∃ response, reply.value = .ok response := by
  obtain ⟨id, start, request, limits, rest, received, rfl, hunary, rfl⟩ := taskStatus_cases h
  cases unary_cases hunary with
  | refused hlocal =>
      refine .inl ⟨hmark.countP_of_local ?_, _, rfl⟩
      exact List.forall_mem_cons.mpr ⟨trivial, List.forall_mem_cons.mpr ⟨trivial, hlocal⟩⟩
  | @handed exchange hshows =>
      have hstarted : Shows exchange (⟨.clock, start⟩ :: rest) := hshows.cons trivial
      have hwhole : Shows exchange (⟨.drawId, id⟩ :: ⟨.clock, start⟩ :: rest) := hstarted.cons trivial
      refine .inr ⟨_, _, hmark.countP_of_shows hwhole, fun status hstatus => ?_⟩
      cases hreceived : exchange.received client.reporter with
      | ok response => exact ⟨response, value_of_received hreceived⟩
      | error fault =>
          rw [hreceived] at hstatus
          cases hstatus

theorem OfReplies.once (hmark : OfReplies mark) : OncePerQuestion client task mark where
  at_most h := by
    rcases hmark.countP_cases h with ⟨hnone, -⟩ | ⟨call, reply, hone, -⟩
    · exact hnone.trans_le (Nat.zero_le 1)
    · exact hone.trans_le List.countP_le_length
  answered h := by
    rcases hmark.countP_cases h with ⟨-, _, hfault⟩ | ⟨call, ⟨delay, value⟩, hone, hanswered⟩
    · cases hfault
    · obtain ⟨response, rfl⟩ := hanswered _ rfl
      rw [hone, List.countP_singleton, hmark.reply]
      rfl
  clock now := hmark.isLocal ⟨.clock, now⟩ trivial
  wait due limits waited := hmark.isLocal ⟨.wait due limits, waited⟩ trivial

theorem ofReplies_hands : OfReplies Event.hands where
  isLocal event hlocal := by
    obtain ⟨question, answer⟩ := event
    cases question with
    | send => exact hlocal.elim
    | _ => rfl
  reply _ _ _ := rfl

theorem ofReplies_isReply : OfReplies Event.isReply where
  isLocal event hlocal := by
    obtain ⟨question, answer⟩ := event
    cases question with
    | send => exact hlocal.elim
    | _ => rfl
  reply _ _ _ := rfl

theorem OncePerQuestion.countP_before (honce : OncePerQuestion client task mark) {front back : History}
    {event : Event} {outcome : Except Fault TaskStatus} (hevent : mark event = true)
    (h : (client.taskStatus task).run.Ends (front ++ event :: back) outcome) : front.countP mark = 0 := by
  have hone := honce.at_most h
  rw [List.countP_append, List.countP_cons_of_pos hevent] at hone
  omega

/-! ### Before the request -/

theorem prompt_before_draw {asked rest : History} {event : Event} {outcome : Except Fault TaskStatus}
    (hdraws : event.draws = true)
    (h : (client.taskStatus task).run.Ends (asked ++ event :: rest) outcome) :
    ∀ other ∈ asked ++ [event], ¬ other.question.Waits := by
  have hnone := (once_draws client task).countP_before hdraws h
  obtain ⟨id, start, _, _, later, _, hhistory, -, -⟩ := taskStatus_cases h
  cases asked with
  | nil =>
      intro other hmem
      obtain rfl := List.mem_singleton.mp hmem
      exact Event.not_waits_of_draws hdraws
  | cons first asked =>
      obtain ⟨rfl, -⟩ := List.cons.inj hhistory
      exact absurd rfl (List.countP_eq_zero.mp hnone _ List.mem_cons_self)

section Sending

variable {method : Method} {request : Envelope.Request} {limits : Limits} {call made : Call}
  {front back : History} {reply : Delayed (Except Status Envelope.Response)}
  {received : Except Fault Envelope.Response}

/-- A request is handed over at once, and what follows it stays on this side. -/
theorem prompt_exchange
    (h : (client.exchange limits (Flow.query (.send made))).run.Ends (front ++ ⟨.send call, reply⟩ :: back)
      received) :
    ∀ event ∈ front, ¬ event.question.Waits := by
  have hsend := not_isLocal_send call
  generalize hwhole : front ++ ⟨.send call, reply⟩ :: back = history at h
  cases exchange_cases h with
  | refused =>
      have hmem : ⟨.send call, reply⟩ ∈ ([⟨.isCancelled limits.scope, true⟩] : History) :=
        hwhole ▸ List.mem_append_right _ List.mem_cons_self
      cases List.mem_singleton.mp hmem
  | @waited _ renewing given now waited _ hhand hsettled =>
      obtain rfl := ends_query_iff.mp hhand
      rw [List.singleton_append] at hwhole
      cases front with
      | nil => exact List.forall_mem_nil _
      | cons first front =>
          obtain ⟨rfl, hhanding⟩ := List.cons.inj hwhole
          refine List.forall_mem_cons.mpr ⟨not_false, ?_⟩
          cases front with
          | nil => exact List.forall_mem_nil _
          | cons second front =>
              obtain ⟨-, hbehind⟩ := List.cons.inj hhanding
              have hlocal : ∀ event ∈ (⟨.clock, now⟩ ::
                  ⟨.wait (given.delay.map (now + ·)) limits, waited⟩ :: renewing : History),
                  event.question.IsLocal :=
                List.forall_mem_cons.mpr ⟨trivial, List.forall_mem_cons.mpr
                  ⟨trivial, hsettled.isRenewal.isLocal⟩⟩
              rw [← hbehind] at hlocal
              exact absurd (hlocal _ (List.mem_append_right _ List.mem_cons_self)) hsend

/-- A client without credentials waits for nothing before it hands a request over. -/
theorem prompt_before_send (hnone : client.config.credentials.isNone = true)
    (h : (client.unary method request limits).run.Ends (front ++ ⟨.send call, reply⟩ :: back) received) :
    ∀ event ∈ front, ¬ event.question.Waits := by
  have hprepare : (client.prepare method request limits).run.Asks fun question =>
      question.IsLocal ∧ ¬ question.Waits :=
    asks_preparing (fun hsome => by rw [hnone] at hsome; cases hsome) ⟨trivial, not_false⟩
  have hsend := not_isLocal_send call
  generalize hwhole : front ++ ⟨.send call, reply⟩ :: back = history at h
  unfold unary at h
  rcases ends_run_bind_iff.mp h with
    ⟨fault, hpreparing, -⟩ | ⟨preparing, exchanging, made, rfl, hpreparing, hexchange⟩
  · have hmem : ⟨.send call, reply⟩ ∈ history := hwhole ▸ List.mem_append_right _ List.mem_cons_self
    exact absurd (hprepare _ _ hpreparing _ hmem).1 hsend
  · obtain ⟨middle, rfl, rfl⟩ :=
      split_behind (fun event hmem => (hprepare _ _ hpreparing event hmem).1) hsend hwhole
    exact List.forall_mem_append.mpr
      ⟨fun event hmem => (hprepare _ _ hpreparing event hmem).2, prompt_exchange hexchange⟩

end Sending

theorem prompt_before_hand (hnone : client.config.credentials.isNone = true) {asked rest : History}
    {event : Event} {outcome : Except Fault TaskStatus} (hhands : event.hands = true)
    (h : (client.taskStatus task).run.Ends (asked ++ event :: rest) outcome) :
    ∀ other ∈ asked ++ [event], ¬ other.question.Waits := by
  obtain ⟨id, start, _, _, later, _, hhistory, hunary, -⟩ := taskStatus_cases h
  obtain ⟨question, answer⟩ := event
  cases question with
  | send call =>
      have hfirst : ∀ event ∈ ([⟨.drawId, id⟩, ⟨.clock, start⟩] : History), event.question.IsLocal := by
        simp [Ask.IsLocal]
      obtain ⟨middle, rfl, rfl⟩ := split_behind hfirst (not_isLocal_send call) hhistory
      have hmiddle := prompt_before_send hnone hunary
      refine List.forall_mem_append.mpr ⟨List.forall_mem_append.mpr ⟨?_, hmiddle⟩, ?_⟩
      · exact List.forall_mem_cons.mpr ⟨not_false, List.forall_mem_singleton.mpr not_false⟩
      · exact List.forall_mem_singleton.mpr not_false
  | _ => cases hhands

end Client
end RecordGateway
