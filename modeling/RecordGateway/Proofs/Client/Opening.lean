import RecordGateway.Client
import RecordGateway.Proofs.Flow.Asks
import RecordGateway.Proofs.FrameReader.Arrivals

/-!
Calls, and the opening of a stream. Before a client hands a request over it asks only for what it needs to
make the call (`asks_prepare`). What handing it over can come to is said once for all calls
(`exchange_cases`). After the answer to the request has arrived, every further arrival is that of a frame,
so a history tells which bytes a stream has brought (`broughtBytes`).
-/

namespace RecordGateway

open FrameReader

/-- The bytes that the first stream of a history has brought. -/
def broughtBytes : History → Bytes
  | [] => []
  | ⟨.openStream _, answer⟩ :: later =>
    match answer.value with
    | .ok stream => payload (stream.arrivals.take (arrivalCount later - 1))
    | .error _ => []
  | _ :: later => broughtBytes later

theorem broughtBytes_append {front : History} (hfront : ∀ event ∈ front, event.question.IsLocal)
    (back : History) : broughtBytes (front ++ back) = broughtBytes back := by
  induction front with
  | nil => rfl
  | cons event front ih =>
      rw [List.forall_mem_cons] at hfront
      obtain ⟨question, answer⟩ := event
      cases question with
      | openStream call => exact hfront.1.elim
      | _ => exact ih hfront.2

theorem broughtBytes_of_local {history : History}
    (hlocal : ∀ event ∈ history, event.question.IsLocal) : broughtBytes history = [] := by
  rw [← List.append_nil history, broughtBytes_append hlocal]
  rfl

namespace Client

open RecordGateway.Flow

variable {client : Client} {method : Method} {request : Envelope.Request} {limits : Limits}
  {history : History}

section Preparing

variable {allowed : Ask → Prop}
  (hcredential : client.config.credentials.isNone = false → allowed (.credential limits))
include hcredential

theorem asks_authorization : (client.authorization limits).run.Asks allowed := by
  unfold authorization
  split
  · exact asks_pure _
  · next hsome =>
      refine asks_run_bind (asks_run_query (hcredential (Bool.not_eq_true _ ▸ hsome))) fun answer => ?_
      cases answer with
      | token text =>
          dsimp only
          split
          · exact asks_run_bind (asks_pure _) fun _ => asks_pure _
          · exact asks_pure _
      | _ => exact asks_pure _

/-- Before a request is handed over only the time is asked for, and a token by who has to prove who it is. -/
theorem asks_preparing (hclock : allowed .clock) :
    (client.prepare method request limits).run.Asks allowed := by
  unfold prepare
  refine asks_run_bind (asks_run_query hclock) fun now => ?_
  dsimp only
  have hcall : ∀ checked : PUnit, (do
      let authorization ← client.authorization limits
      return { method, request, version := client.config.clientVersion, authorization,
               timeout := limits.deadline.map (· - now) } : Making Call).run.Asks allowed :=
    fun _ => asks_run_bind (asks_authorization hcredential) fun _ => asks_pure _
  split
  · exact asks_run_bind (asks_pure _) hcall
  · exact hcall ⟨⟩

end Preparing

/-- What a request needs before it is handed over is on this side. -/
theorem asks_prepare : (client.prepare method request limits).run.Asks Ask.IsLocal :=
  asks_preparing (fun _ => trivial) trivial

theorem request_prepare {call : Call}
    (h : (client.prepare method request limits).run.Ends history (.ok call)) :
    call.request = request := by
  unfold prepare at h
  obtain ⟨now, rest, rfl, hrest⟩ := ends_run_query_bind_iff.mp h
  dsimp only at hrest
  have hcall : ∀ {later : History}, (do
      let authorization ← client.authorization limits
      return { method, request, version := client.config.clientVersion, authorization,
               timeout := limits.deadline.map (· - now) } : Making Call).run.Ends later (.ok call) →
        call.request = request := by
    intro later hlater
    rcases ends_run_bind_iff.mp hlater with ⟨fault, -, hfault⟩ | ⟨_, _, authorization, -, -, hmade⟩
    · cases hfault
    · obtain ⟨-, hmade⟩ := ends_pure_iff.mp hmade
      obtain rfl := Except.ok.inj hmade
      rfl
  split at hrest
  · obtain ⟨-, hfault⟩ := ends_pure_iff.mp hrest
    cases hfault
  · exact hcall hrest

/-! ### Exchanges -/

/-- What follows the wait for an answer asks for a new token at most. -/
def IsRenewal (history : History) : Prop :=
  ∀ event ∈ history, event.question = .renewCredential

theorem isRenewal_nil : IsRenewal [] := by
  intro event hmem
  cases hmem

theorem IsRenewal.isLocal (h : IsRenewal history) : ∀ event ∈ history, event.question.IsLocal := by
  intro event hmem
  rw [h event hmem]
  trivial

theorem rejected_spec {status : Status} {result : Except Fault Fault}
    (h : (client.rejected status limits).run.Ends history result) :
    result = .ok (client.reporter.ofStatus status limits.isWrite) ∧ IsRenewal history := by
  unfold rejected at h
  dsimp only at h
  split at h
  · obtain ⟨answer, rest, rfl, hrest⟩ := ends_run_query_bind_iff.mp h
    obtain ⟨rfl, rfl⟩ := ends_pure_iff.mp hrest
    exact ⟨rfl, by simp [IsRenewal]⟩
  · obtain ⟨rfl, rfl⟩ := ends_pure_iff.mp h
    exact ⟨rfl, isRenewal_nil⟩

theorem asks_rejected {status : Status} :
    (client.rejected status limits).run.Asks Ask.IsLocal :=
  fun _ _ hends => (rejected_spec hends).2.isLocal

variable {α : Type}

/-- What a call comes to, given the answer to its request and how the wait for the answer ended. -/
inductive Settled (client : Client) (limits : Limits) (reply : Delayed (Except Status α)) :
    Waited → History → Except Fault α → Prop where
  | cancelled : Settled client limits reply .cancelled [] (.error .callCancelled)
  | timedOut : Settled client limits reply .timedOut [] (.error (.deadlineExceeded limits.isWrite))
  | arrived {value : α} :
      reply.value = .ok value → Settled client limits reply .arrived [] (.ok value)
  | rejected {status : Status} {renewing : History} :
      reply.value = .error status → IsRenewal renewing →
      Settled client limits reply .arrived renewing
        (.error (client.reporter.ofStatus status limits.isWrite))

theorem Settled.isRenewal {reply : Delayed (Except Status α)} {waited : Waited} {rest : History}
    {result : Except Fault α} (h : Settled client limits reply waited rest result) : IsRenewal rest := by
  cases h with
  | rejected _ hrenewal => exact hrenewal
  | _ => exact isRenewal_nil

/-- What handing a request over comes to: the call is already cancelled, or the client waits for the
answer. -/
inductive Handed (client : Client) (limits : Limits) (hand : Flow (Delayed (Except Status α))) :
    History → Except Fault α → Prop where
  | refused : Handed client limits hand [⟨.isCancelled limits.scope, true⟩] (.error .callCancelled)
  | waited {handing rest : History} {reply : Delayed (Except Status α)} {now : Time}
      {waited : Waited} {result : Except Fault α} :
      hand.Ends handing reply → Settled client limits reply waited rest result →
      Handed client limits hand
        (⟨.isCancelled limits.scope, false⟩ :: (handing ++ ⟨.clock, now⟩ ::
          ⟨.wait (reply.delay.map (now + ·)) limits, waited⟩ :: rest)) result

theorem exchange_cases {hand : Flow (Delayed (Except Status α))} {result : Except Fault α}
    (h : (client.exchange limits hand).run.Ends history result) :
    Handed client limits hand history result := by
  unfold exchange at h
  obtain ⟨cancelled, begun, rfl, hbegun⟩ := ends_run_query_bind_iff.mp h
  cases cancelled with
  | true =>
      obtain ⟨rfl, rfl⟩ := ends_pure_iff.mp hbegun
      exact .refused
  | false =>
      rcases ends_run_bind_iff.mp hbegun with
        ⟨fault, hlifted, -⟩ | ⟨lifted, timing, reply, rfl, hlifted, htiming⟩
      · obtain ⟨_, _, _, -, -, hfault⟩ := ends_bind_iff.mp hlifted
        cases (ends_pure_iff.mp hfault).2
      obtain ⟨handing, silent, given, rfl, hhand, hsilent⟩ := ends_bind_iff.mp hlifted
      obtain ⟨rfl, hgiven⟩ := ends_pure_iff.mp hsilent
      obtain rfl := Except.ok.inj hgiven
      obtain ⟨now, waiting, rfl, hwaiting⟩ := ends_run_query_bind_iff.mp htiming
      obtain ⟨waited, rest, rfl, hrest⟩ := ends_run_query_bind_iff.mp hwaiting
      rw [List.append_nil]
      refine .waited hhand ?_
      cases waited with
      | cancelled =>
          obtain ⟨rfl, rfl⟩ := ends_pure_iff.mp hrest
          exact .cancelled
      | timedOut =>
          obtain ⟨rfl, rfl⟩ := ends_pure_iff.mp hrest
          exact .timedOut
      | arrived =>
          obtain ⟨delay, value⟩ := reply
          cases value with
          | ok value =>
              obtain ⟨rfl, rfl⟩ := ends_pure_iff.mp hrest
              exact .arrived rfl
          | error status =>
              rcases ends_run_bind_iff.mp hrest with
                ⟨fault, hrejected, -⟩ | ⟨renewing, last, fault, rfl, hrejected, hlast⟩
              · cases (rejected_spec hrejected).1
              · obtain ⟨hfault, hrenewal⟩ := rejected_spec hrejected
                obtain rfl := Except.ok.inj hfault
                obtain ⟨rfl, rfl⟩ := ends_pure_iff.mp hlast
                rw [List.append_nil]
                exact .rejected rfl hrenewal

/-- What may be asked for one call: no numbers are drawn for it, and no token is needed by a client without
credentials. -/
def AsksForCall (client : Client) : Ask → Prop
  | .drawId | .drawTaskId => False
  | .credential _ => client.config.credentials.isNone = false
  | _ => True

theorem asks_unary :
    (client.unary method request limits).run.Asks client.AsksForCall := by
  unfold unary
  refine asks_run_bind (asks_preparing (fun hsome => hsome) trivial) fun call => ?_
  intro history result h
  cases exchange_cases h with
  | refused => exact List.forall_mem_singleton.mpr trivial
  | waited hhand hsettled =>
      obtain rfl := ends_query_iff.mp hhand
      simp only [List.forall_mem_cons, List.singleton_append]
      refine ⟨trivial, trivial, trivial, trivial, fun event hmem => ?_⟩
      rw [hsettled.isRenewal event hmem]
      trivial

/-! ### Streams -/

/-- What opening a stream comes to. -/
inductive Opening (request : Envelope.Request) (limits : Limits) :
    History → Except Fault FrameStream → Prop where
  | failed {history : History} {fault : Fault} :
      broughtBytes history = [] → Opening request limits history (.error fault)
  | opened {front : History} {call : Call} {delay : Option Time} {stream : FrameStream} {now : Time}
      {due : Option Time} :
      call.request = request → (∀ event ∈ front, event.question.IsLocal) →
      Opening request limits
        (front ++ [⟨.openStream call, ⟨delay, .ok stream⟩⟩, ⟨.clock, now⟩,
          ⟨.wait due limits, Waited.arrived⟩])
        (.ok stream)

theorem stream_cases {result : Except Fault FrameStream}
    (h : (client.stream method request limits).run.Ends history result) :
    Opening request limits history result := by
  unfold stream at h
  rcases ends_run_bind_iff.mp h with
    ⟨fault, hprepare, rfl⟩ | ⟨front, back, call, rfl, hprepare, hexchange⟩
  · exact .failed (broughtBytes_of_local (asks_prepare _ _ hprepare))
  have hfront := asks_prepare _ _ hprepare
  cases exchange_cases hexchange with
  | refused => exact .failed (broughtBytes_append hfront _)
  | @waited _ rest reply now _ _ hhand hsettled =>
      obtain rfl := ends_query_iff.mp hhand
      obtain ⟨delay, value⟩ := reply
      cases hsettled with
      | cancelled | timedOut =>
          refine .failed ?_
          rw [broughtBytes_append hfront]
          cases value <;> rfl
      | arrived hvalue =>
          obtain rfl := hvalue
          have hbefore : ∀ event ∈ front ++ [⟨.isCancelled limits.scope, false⟩],
              event.question.IsLocal := by
            rw [List.forall_mem_append, List.forall_mem_singleton]
            exact ⟨hfront, trivial⟩
          rw [List.append_cons]
          exact .opened (request_prepare hprepare) hbefore
      | rejected hvalue =>
          obtain rfl := hvalue
          exact .failed (broughtBytes_append hfront _)

/-- A client that cannot open a stream has got no bytes of it; a stream that it opens brings one frame
with each arrival from then on. -/
theorem stream_spec {result : Except Fault FrameStream}
    (h : (client.stream method request limits).run.Ends history result) :
    (∃ fault, result = .error fault ∧ broughtBytes history = []) ∨
      ∃ stream, result = .ok stream ∧
        ∀ more, broughtBytes (history ++ more) =
          payload (stream.arrivals.take (arrivalCount more)) := by
  cases stream_cases h with
  | @failed _ fault hnone => exact .inl ⟨fault, rfl, hnone⟩
  | @opened front call delay stream now due _ hfront =>
      refine .inr ⟨stream, rfl, fun more => ?_⟩
      rw [List.append_assoc, broughtBytes_append hfront]
      simp [broughtBytes, arrivalCount, Event.isArrival]

end Client
end RecordGateway
