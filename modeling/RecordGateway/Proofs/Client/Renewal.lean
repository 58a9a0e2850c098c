import RecordGateway.Proofs.Client.Attempts
import RecordGateway.Proofs.Client.Traces
import RecordGateway.Proofs.RecordSet.Course

/-!
Logins that rejected calls bring about. A client with credentials asks for a new login directly after a call
was rejected as a whole as unauthenticated, and at no other time (`RenewsLogin`). The same may stand in the
answer to a call that was accepted, in the response or in a frame of the stream; nothing asks for a login
then. So a call that fails since the client is not authenticated has asked for a new login last, has been told
so in the answer to an accepted request, or has no token (`Explained`). What one exchange does is said once
(`exchange_renews`), and it carries over to all calls (`marks_renews`).
-/

namespace RecordGateway

open RecordGateway.Flow

/-! ### What calls do about logins -/

/-- Whether a question is neither for the gateway nor about a login. -/
def Ask.IsIdle : Ask → Prop
  | .send _ | .openStream _ | .credential _ | .renewCredential => False
  | _ => True

namespace Event

/-- The gateway rejects a call as a whole, since the client is not authenticated. -/
def Rejects : Event → Prop
  | ⟨.send _, reply⟩ => ∃ status, reply.value = .error status ∧ status.code = .unauthenticated
  | ⟨.openStream _, opened⟩ => ∃ status, opened.value = .error status ∧ status.code = .unauthenticated
  | _ => False

/-- What makes a call fail since the client is not authenticated, if nothing more is heard: a new login was
asked for, an accepted request was answered, or there is no token. -/
def Explains : Event → Prop
  | ⟨.renewCredential, _⟩ => True
  | ⟨.send _, reply⟩ => ∃ response, reply.value = .ok response
  | ⟨.openStream _, opened⟩ => ∃ stream, opened.value = .ok stream
  | ⟨.credential _, answer⟩ => ∀ text, answer ≠ .token text
  | _ => False

end Event

/-- What a history is put together from: exchanges, of which those that end with a rejection are followed by
asking for a new login, and whatever else is asked. -/
inductive RenewalCourse : History → Prop where
  | nil : RenewalCourse []
  | other {event : Event} {later : History} :
      ¬ event.question.IsRequest → event.question ≠ .renewCredential → RenewalCourse later →
      RenewalCourse (event :: later)
  | exchanged {handed : Event} {now : Time} {due : Option Time} {limits : Limits} {waited : Waited}
      {later : History} :
      handed.question.IsRequest → ¬ (handed.Rejects ∧ waited = .arrived) → RenewalCourse later →
      RenewalCourse (handed :: ⟨.clock, now⟩ :: ⟨.wait due limits, waited⟩ :: later)
  | rejected {handed : Event} {now : Time} {due : Option Time} {limits : Limits} {later : History} :
      handed.Rejects → RenewalCourse later →
      RenewalCourse (handed :: ⟨.clock, now⟩ :: ⟨.wait due limits, Waited.arrived⟩ ::
        ⟨.renewCredential, ()⟩ :: later)

/-- The last word about the requests and the login explains why the client is not authenticated. -/
def Explained (history : History) : Prop :=
  ∃ front event back, history = front ++ event :: back ∧ event.Explains ∧
    ∀ later ∈ back, later.question.IsIdle

/-- Unless the outcome is a failure of another kind, the history explains it. -/
def Accounts {α : Type} (outcome : Except Fault α) (history : History) : Prop :=
  (∀ fault, outcome = .error fault → fault.kind = .notAuthenticated) → Explained history

variable {front back history : History}

theorem RenewalCourse.append (hfront : RenewalCourse front) (hback : RenewalCourse back) :
    RenewalCourse (front ++ back) := by
  induction hfront with
  | nil => exact hback
  | other hrequest hrenewal _ ih => exact .other hrequest hrenewal ih
  | exchanged hhanded hwaited _ ih => exact .exchanged hhanded hwaited ih
  | rejected hhanded _ ih => exact .rejected hhanded ih

theorem lasting_renews : Lasting fun _ => RenewalCourse :=
  ⟨fun _ => .nil, RenewalCourse.append⟩

theorem renews_single {event : Event} (hrequest : ¬ event.question.IsRequest)
    (hrenewal : event.question ≠ .renewCredential) : RenewalCourse [event] :=
  .other hrequest hrenewal .nil

/-- A new login is asked for each time that the rejection of a call has come, as the next thing, and at no
other time. -/
structure RenewsLogin (history : History) : Prop where
  always : ∀ {front back : History} {handed : Event} {now : Time} {due : Option Time} {limits : Limits},
    history = front ++ handed :: ⟨.clock, now⟩ :: ⟨.wait due limits, Waited.arrived⟩ :: back →
    handed.Rejects → ∃ later, back = ⟨.renewCredential, ()⟩ :: later
  only : ∀ {front back : History}, history = front ++ ⟨.renewCredential, ()⟩ :: back →
    ∃ earlier handed now due limits, handed.Rejects ∧
      front = earlier ++ [handed, ⟨.clock, now⟩, ⟨.wait due limits, Waited.arrived⟩]

/-- No part of a course but a rejected call begins with a rejected call. -/
theorem RenewalCourse.after_rejection {handed : Event} {now : Time} {due : Option Time}
    {limits : Limits} (h : RenewalCourse history)
    (hhistory : history =
      front ++ handed :: ⟨.clock, now⟩ :: ⟨.wait due limits, Waited.arrived⟩ :: back)
    (hrejects : handed.Rejects) : ∃ later, back = ⟨.renewCredential, ()⟩ :: later := by
  induction h generalizing front with
  | nil => simp at hhistory
  | @other event _ hrequest _ _ ih =>
      cases front with
      | nil =>
          obtain ⟨rfl, -⟩ := List.cons.inj hhistory
          obtain ⟨question, answer⟩ := event
          cases question <;> first | exact hrejects.elim | exact (hrequest trivial).elim
      | cons _ front => exact ih (List.cons.inj hhistory).2
  | exchanged _ hwaited _ ih =>
      rcases front with _ | ⟨_, _ | ⟨_, _ | ⟨_, front⟩⟩⟩
      · cases hhistory
        exact absurd ⟨hrejects, rfl⟩ hwaited
      · cases hhistory
      · cases hhistory
        exact hrejects.elim
      · exact ih (List.cons.inj (List.cons.inj (List.cons.inj hhistory).2).2).2
  | rejected _ _ ih =>
      rcases front with _ | ⟨_, _ | ⟨_, _ | ⟨_, _ | ⟨_, front⟩⟩⟩⟩
      · cases hhistory
        exact ⟨_, rfl⟩
      · cases hhistory
      · cases hhistory
      · cases hhistory
        exact hrejects.elim
      · exact ih (List.cons.inj (List.cons.inj (List.cons.inj (List.cons.inj hhistory).2).2).2).2

/-- No part of a course but a rejected call asks for a new login. -/
theorem RenewalCourse.before_renewal (h : RenewalCourse history)
    (hhistory : history = front ++ ⟨.renewCredential, ()⟩ :: back) :
    ∃ earlier handed now due limits, handed.Rejects ∧
      front = earlier ++ [handed, ⟨.clock, now⟩, ⟨.wait due limits, Waited.arrived⟩] := by
  induction h generalizing front with
  | nil => simp at hhistory
  | other _ hrenewal _ ih =>
      cases front with
      | nil =>
          obtain ⟨rfl, -⟩ := List.cons.inj hhistory
          exact absurd rfl hrenewal
      | cons first front =>
          obtain ⟨earlier, handed, now, due, limits, hrejects, rfl⟩ := ih (List.cons.inj hhistory).2
          exact ⟨first :: earlier, handed, now, due, limits, hrejects, rfl⟩
  | exchanged hrequest _ _ ih =>
      rcases front with _ | ⟨first, _ | ⟨second, _ | ⟨third, front⟩⟩⟩
      · cases hhistory
        exact hrequest.elim
      · cases hhistory
      · cases hhistory
      · obtain ⟨earlier, handed, now, due, limits, hrejects, rfl⟩ :=
          ih (List.cons.inj (List.cons.inj (List.cons.inj hhistory).2).2).2
        exact ⟨first :: second :: third :: earlier, handed, now, due, limits, hrejects, rfl⟩
  | rejected hrejects _ ih =>
      rcases front with _ | ⟨first, _ | ⟨second, _ | ⟨third, _ | ⟨fourth, front⟩⟩⟩⟩
      · cases hhistory
        exact hrejects.elim
      · cases hhistory
      · cases hhistory
      · cases hhistory
        exact ⟨[], _, _, _, _, hrejects, rfl⟩
      · obtain ⟨earlier, handed, now, due, limits, hrejects, rfl⟩ :=
          ih (List.cons.inj (List.cons.inj (List.cons.inj (List.cons.inj hhistory).2).2).2).2
        exact ⟨first :: second :: third :: fourth :: earlier, handed, now, due, limits, hrejects, rfl⟩

theorem RenewalCourse.renewsLogin (h : RenewalCourse history) : RenewsLogin history :=
  ⟨h.after_rejection, h.before_renewal⟩

theorem Explained.append_left (h : Explained back) (front : History) : Explained (front ++ back) := by
  obtain ⟨before, event, after, rfl, hevent, hafter⟩ := h
  exact ⟨front ++ before, event, after, by rw [List.append_assoc], hevent, hafter⟩

theorem Explained.append_idle (h : Explained front)
    (hback : ∀ event ∈ back, event.question.IsIdle) : Explained (front ++ back) := by
  obtain ⟨before, event, after, rfl, hevent, hafter⟩ := h
  refine ⟨before, event, after ++ back, by rw [List.append_assoc]; rfl, hevent, ?_⟩
  rw [List.forall_mem_append]
  exact ⟨hafter, hback⟩

theorem explained_singleton {event : Event} (hevent : event.Explains) : Explained [event] :=
  ⟨[], event, [], rfl, hevent, List.forall_mem_nil _⟩

theorem accounts_of_kind_ne {α : Type} {fault : Fault} (hkind : fault.kind ≠ .notAuthenticated) :
    Accounts (.error fault : Except Fault α) history :=
  fun hall => absurd (hall fault rfl) hkind

theorem Fault.kind_ofStatus_eq_notAuthenticated_iff {reporter : Fault.Reporter} {status : Status}
    {isWrite : Bool} :
    (reporter.ofStatus status isWrite).kind = .notAuthenticated ↔ status.code = .unauthenticated := by
  unfold Reporter.ofStatus
  cases status.code <;> simp [ofKind]

namespace Client

variable {client : Client} {method : Method} {request : Envelope.Request} {limits : Limits}
  {history : History} {α : Type}

/-! ### One exchange -/

theorem authorization_renews {outcome : Except Fault (Option String)}
    (hcredentials : client.config.credentials.isSome = true)
    (h : (client.authorization limits).run.Ends history outcome) :
    RenewalCourse history ∧ ∀ fault, outcome = .error fault → fault.kind = .notAuthenticated →
      Explained history := by
  unfold authorization at h
  rw [Option.isNone_eq_false_iff.mpr hcredentials] at h
  obtain ⟨answer, rest, rfl, hrest⟩ := ends_run_query_bind_iff.mp h
  cases answer with
  | token text =>
      dsimp only at hrest
      split at hrest
      · obtain ⟨rfl, rfl⟩ := ends_pure_iff.mp hrest
        refine ⟨renews_single id nofun, ?_⟩
        rintro _ ⟨⟩ ⟨⟩
      · obtain ⟨rfl, rfl⟩ := ends_pure_iff.mp hrest
        exact ⟨renews_single id nofun, nofun⟩
  | _ =>
      obtain ⟨rfl, rfl⟩ := ends_pure_iff.mp hrest
      exact ⟨renews_single id nofun, fun _ _ _ => explained_singleton nofun⟩

theorem prepare_renews {outcome : Except Fault Call}
    (hcredentials : client.config.credentials.isSome = true)
    (h : (client.prepare method request limits).run.Ends history outcome) :
    RenewalCourse history ∧ ∀ fault, outcome = .error fault → fault.kind = .notAuthenticated →
      Explained history := by
  unfold prepare at h
  obtain ⟨now, rest, rfl, hrest⟩ := ends_run_query_bind_iff.mp h
  dsimp only at hrest
  split at hrest
  · obtain ⟨rfl, rfl⟩ := ends_pure_iff.mp hrest
    refine ⟨renews_single id nofun, ?_⟩
    rintro _ ⟨⟩ ⟨⟩
  · rcases ends_run_bind_iff.mp hrest with
      ⟨fault, hproof, rfl⟩ | ⟨front, back, proof, rfl, hproof, hmade⟩
    · obtain ⟨hrenews, hexplained⟩ := authorization_renews hcredentials hproof
      refine ⟨.other id nofun hrenews, fun _ hfault hkind => ?_⟩
      obtain rfl := Except.error.inj hfault
      exact (hexplained _ rfl hkind).append_left [_]
    · obtain ⟨rfl, rfl⟩ := ends_pure_iff.mp hmade
      rw [List.append_nil]
      exact ⟨.other id nofun (authorization_renews hcredentials hproof).1, nofun⟩

/-- The flow hands one request over, and its answer is the gateway's word. -/
def Hands (hand : Flow (Delayed (Except Status α))) : Prop :=
  ∀ handing reply, hand.Ends handing reply → ∃ handed : Event, handing = [handed] ∧
    handed.question.IsRequest ∧
    (handed.Rejects ↔ ∃ status, reply.value = .error status ∧ status.code = .unauthenticated) ∧
    ∀ value, reply.value = .ok value → handed.Explains

theorem hands_send (call : Call) : Hands (Flow.query (.send call)) := by
  intro handing reply h
  obtain rfl := ends_query_iff.mp h
  exact ⟨_, rfl, trivial, Iff.rfl, fun value hvalue => ⟨value, hvalue⟩⟩

theorem hands_openStream (call : Call) : Hands (Flow.query (.openStream call)) := by
  intro handing reply h
  obtain rfl := ends_query_iff.mp h
  exact ⟨_, rfl, trivial, Iff.rfl, fun value hvalue => ⟨value, hvalue⟩⟩

/-- What comes of an answer that has arrived. -/
theorem rejected_renews {status : Status} {outcome : Except Fault Fault}
    (hcredentials : client.config.credentials.isSome = true)
    (h : (client.rejected status limits).run.Ends history outcome) :
    outcome = .ok (client.reporter.ofStatus status limits.isWrite) ∧
      (status.code = .unauthenticated ∧ history = [⟨.renewCredential, ()⟩] ∨
        status.code ≠ .unauthenticated ∧ history = []) := by
  unfold rejected at h
  dsimp only at h
  split at h
  · next hrejected =>
      obtain ⟨answer, rest, rfl, hrest⟩ := ends_run_query_bind_iff.mp h
      obtain ⟨rfl, rfl⟩ := ends_pure_iff.mp hrest
      exact ⟨rfl, .inl ⟨Fault.kind_ofStatus_eq_notAuthenticated_iff.mp hrejected.1, rfl⟩⟩
  · next hother =>
      obtain ⟨rfl, rfl⟩ := ends_pure_iff.mp h
      refine ⟨rfl, .inr ⟨fun hcode => hother ⟨?_, hcredentials⟩, rfl⟩⟩
      exact Fault.kind_ofStatus_eq_notAuthenticated_iff.mpr hcode

/-- A new login is asked for exactly if the answer that has come rejects the call. -/
theorem exchange_renews {hand : Flow (Delayed (Except Status α))} {outcome : Except Fault α}
    (hcredentials : client.config.credentials.isSome = true) (hhands : Hands hand)
    (h : (client.exchange limits hand).run.Ends history outcome) :
    RenewalCourse history ∧ Accounts outcome history := by
  unfold exchange at h
  obtain ⟨cancelled, begun, rfl, hbegun⟩ := ends_run_query_bind_iff.mp h
  cases cancelled with
  | true =>
      obtain ⟨rfl, rfl⟩ := ends_pure_iff.mp hbegun
      exact ⟨renews_single id nofun, accounts_of_kind_ne nofun⟩
  | false =>
      rcases ends_run_bind_iff.mp hbegun with
        ⟨fault, hlifted, -⟩ | ⟨lifted, timing, reply, rfl, hlifted, htiming⟩
      · obtain ⟨_, _, _, -, -, hfault⟩ := ends_bind_iff.mp hlifted
        cases (ends_pure_iff.mp hfault).2
      obtain ⟨handing, silent, given, rfl, hhand, hsilent⟩ := ends_bind_iff.mp hlifted
      obtain ⟨rfl, hgiven⟩ := ends_pure_iff.mp hsilent
      obtain rfl := Except.ok.inj hgiven
      obtain ⟨handed, rfl, hrequest, hrejects, haccepts⟩ := hhands _ _ hhand
      obtain ⟨now, waiting, rfl, hwaiting⟩ := ends_run_query_bind_iff.mp htiming
      obtain ⟨waited, rest, rfl, hrest⟩ := ends_run_query_bind_iff.mp hwaiting
      cases waited with
      | cancelled =>
          obtain ⟨rfl, rfl⟩ := ends_pure_iff.mp hrest
          exact ⟨.other id nofun (.exchanged hrequest nofun .nil), accounts_of_kind_ne nofun⟩
      | timedOut =>
          obtain ⟨rfl, rfl⟩ := ends_pure_iff.mp hrest
          exact ⟨.other id nofun (.exchanged hrequest nofun .nil), accounts_of_kind_ne nofun⟩
      | arrived =>
          obtain ⟨delay, value⟩ := reply
          cases value with
          | ok value =>
              obtain ⟨rfl, rfl⟩ := ends_pure_iff.mp hrest
              have hsound : ¬ (handed.Rejects ∧ Waited.arrived = .arrived) := by
                rintro ⟨hrejected, -⟩
                obtain ⟨status, hstatus, -⟩ := hrejects.mp hrejected
                cases hstatus
              refine ⟨.other id nofun (.exchanged hrequest hsound .nil), fun _ => ?_⟩
              refine ⟨[_], handed, _, rfl, haccepts value rfl, ?_⟩
              simp [Ask.IsIdle]
          | error status =>
              rcases ends_run_bind_iff.mp hrest with
                ⟨fault, hrejected, -⟩ | ⟨renewing, last, fault, rfl, hrejected, hlast⟩
              · cases (rejected_renews hcredentials hrejected).1
              obtain ⟨rfl, rfl⟩ := ends_pure_iff.mp hlast
              obtain ⟨hfault, hcode⟩ := rejected_renews hcredentials hrejected
              obtain rfl := Except.ok.inj hfault
              rcases hcode with ⟨hcode, rfl⟩ | ⟨hcode, rfl⟩
              · have hrejected := hrejects.mpr ⟨status, rfl, hcode⟩
                refine ⟨.other id nofun (.rejected hrejected .nil), fun _ => ?_⟩
                exact ⟨[_, handed, _, _], _, [], rfl, trivial, List.forall_mem_nil _⟩
              · have hother : ¬ (handed.Rejects ∧ Waited.arrived = .arrived) := by
                  rintro ⟨hrejected, -⟩
                  obtain ⟨given, hgiven, hgivenCode⟩ := hrejects.mp hrejected
                  obtain rfl := Except.error.inj hgiven
                  exact hcode hgivenCode
                refine ⟨.other id nofun (.exchanged hrequest hother .nil), accounts_of_kind_ne ?_⟩
                exact fun hkind => hcode (Fault.kind_ofStatus_eq_notAuthenticated_iff.mp hkind)

/-- A call makes itself ready, and then hands its request over. -/
theorem call_renews {f : Call → Making α} {outcome : Except Fault α}
    (hcredentials : client.config.credentials.isSome = true)
    (hexchange : ∀ call history outcome, (f call).run.Ends history outcome →
      RenewalCourse history ∧ Accounts outcome history)
    (h : (client.prepare method request limits >>= f).run.Ends history outcome) :
    RenewalCourse history ∧ Accounts outcome history := by
  rcases ends_run_bind_iff.mp h with
    ⟨fault, hprepare, rfl⟩ | ⟨front, back, call, rfl, hprepare, hback⟩
  · obtain ⟨hrenews, hexplained⟩ := prepare_renews hcredentials hprepare
    exact ⟨hrenews, fun hkind => hexplained fault rfl (hkind fault rfl)⟩
  · obtain ⟨hrenews, haccounts⟩ := hexchange call _ _ hback
    exact ⟨(prepare_renews hcredentials hprepare).1.append hrenews,
      fun hkind => (haccounts hkind).append_left front⟩

theorem unary_renews {outcome : Except Fault Envelope.Response}
    (hcredentials : client.config.credentials.isSome = true)
    (h : (client.unary method request limits).run.Ends history outcome) :
    RenewalCourse history ∧ Accounts outcome history :=
  call_renews hcredentials (fun call _ _ => exchange_renews hcredentials (hands_send call)) h

theorem stream_renews {outcome : Except Fault FrameStream}
    (hcredentials : client.config.credentials.isSome = true)
    (h : (client.stream method request limits).run.Ends history outcome) :
    RenewalCourse history ∧ Accounts outcome history :=
  call_renews hcredentials (fun call _ _ => exchange_renews hcredentials (hands_openStream call)) h

theorem marks_renews (hcredentials : client.config.credentials.isSome = true) (scope : Scope) :
    client.Marks scope RenewalCourse where
  toLasting := lasting_renews
  plain := by
    rintro ⟨question, answer⟩ hplain
    refine renews_single (fun hrequest => ?_) (fun hrenewal => ?_)
    · cases question <;> first | exact hplain | exact hrequest
    · obtain rfl : question = .renewCredential := hrenewal
      exact hplain
  pause := fun _ _ _ => .other id nofun (renews_single id nofun)
  frame := fun _ _ _ _ => renews_single id nofun
  unary := fun _ _ _ _ _ _ h => (unary_renews hcredentials h).1
  stream := fun _ _ _ _ _ _ h => (stream_renews hcredentials h).1

/-! ### Failures of whole calls -/

/-- Whatever the activity comes to, its history explains it, unless it is a failure of another kind. -/
def Accounting (making : Making α) : Prop :=
  ∀ history outcome, making.run.Ends history outcome → Accounts outcome history

theorem Accounting.bind {β : Type} {making : Making α} {f : α → Making β} (hmaking : Accounting making)
    (hf : ∀ value, (f value).run.Asks Ask.IsIdle) : Accounting (making >>= f) := by
  intro history outcome hends hkind
  rcases ends_run_bind_iff.mp hends with
    ⟨fault, hfault, rfl⟩ | ⟨front, back, value, rfl, hfront, hback⟩
  · refine hmaking _ _ hfault ?_
    rintro _ ⟨⟩
    exact hkind fault rfl
  · exact (hmaking _ _ hfront nofun).append_idle (hf value _ _ hback)

theorem accounting_ask_bind {question : Ask} {f : question.Answer → Making α}
    (hf : ∀ answer, Accounting (f answer)) : Accounting (ask question >>= f) := by
  intro history outcome hends hkind
  obtain ⟨answer, rest, rfl, hrest⟩ := ends_run_query_bind_iff.mp hends
  exact (hf answer _ _ hrest hkind).append_left [_]

theorem asks_run_lift (outcome : Except Fault α) {allowed : Ask → Prop} :
    (liftM outcome : Making α).run.Asks allowed := by
  cases outcome <;> exact asks_pure _

theorem accounting_unary (hcredentials : client.config.credentials.isSome = true) :
    Accounting (client.unary method request limits) :=
  fun _ _ h => (unary_renews hcredentials h).2

theorem accounting_stream (hcredentials : client.config.credentials.isSome = true) :
    Accounting (client.stream method request limits) :=
  fun _ _ h => (stream_renews hcredentials h).2

/-- What is refused before anything is asked, and otherwise is accounted for. -/
theorem accounts_lift_bind {β : Type} {checked : Except Fault α} {f : α → Making β}
    {outcome : Except Fault β} (hf : ∀ value, Accounting (f value))
    (h : (liftM checked >>= f).run.Ends history outcome) :
    (∃ fault, outcome = .error fault) ∧ history = [] ∨ Accounts outcome history := by
  rcases ends_run_bind_iff.mp h with ⟨fault, hfault, rfl⟩ | ⟨front, back, value, rfl, hfront, hback⟩
  · obtain ⟨rfl, -⟩ := ends_run_lift_iff.mp hfault
    exact .inl ⟨⟨fault, rfl⟩, rfl⟩
  · obtain ⟨rfl, -⟩ := ends_run_lift_iff.mp hfront
    exact .inr (hf value _ _ hback)

/-- Why a call fails since the client is not authenticated, if it does: its history explains it, or no
request was handed over. -/
def Justifies (outcome : Except Fault α) (history : History) : Prop :=
  ∀ fault, outcome = .error fault → fault.kind = .notAuthenticated →
    Explained history ∨ callsIn history = []

theorem justifies_of_accounts {outcome : Except Fault α} (h : Accounts outcome history) :
    Justifies outcome history := by
  rintro fault rfl hkind
  refine .inl (h ?_)
  rintro _ ⟨⟩
  exact hkind

theorem justifies_nil {outcome : Except Fault α} : Justifies outcome [] :=
  fun _ _ _ => .inr rfl

theorem justifies_lift_bind {β : Type} {checked : Except Fault α} {f : α → Making β}
    {outcome : Except Fault β} (hf : ∀ value, Accounting (f value))
    (h : (liftM checked >>= f).run.Ends history outcome) : Justifies outcome history := by
  rcases accounts_lift_bind hf h with ⟨-, rfl⟩ | haccounts
  · exact justifies_nil
  · exact justifies_of_accounts haccounts

/-! ### Single commands -/

theorem accounting_attempt (hcredentials : client.config.credentials.isSome = true) (command : Command)
    (payload : Bytes) (id : UInt32) (iteration : Nat) (total : Option Time) :
    Accounting (client.attempt command payload id iteration total) :=
  accounting_ask_bind fun _ => (accounting_unary hcredentials).bind fun _ => asks_run_lift _

/-- A further attempt has the last word. The induction is on the retries that are left. -/
theorem accounting_attempts (hcredentials : client.config.credentials.isSome = true) (command : Command)
    (payload : Bytes) (id : UInt32) (total : Option Time) (retries iteration : Nat) (doubt : Bool) :
    Accounting (ExceptT.mk (client.attempts command payload id total retries iteration doubt)) := by
  have hattempt := accounting_attempt hcredentials command payload id
  have hfailed : ∀ {front fault iteration inDoubt},
      (client.attempt command payload id iteration total).run.Ends front (.error fault) →
      Accounts (.error { fault with inDoubt, iteration := some iteration } : Except Fault Command.Output)
        front := by
    intro front fault iteration inDoubt hfront hkind
    have hown := hkind _ rfl
    refine hattempt iteration total _ _ hfront ?_
    rintro _ ⟨⟩
    exact hown
  induction retries generalizing iteration doubt with
  | zero =>
      intro history outcome hends
      unfold attempts at hends
      obtain ⟨front, back, given, rfl, hfront, hback⟩ := ends_bind_iff.mp hends
      cases given with
      | ok output =>
          obtain ⟨rfl, rfl⟩ := ends_pure_iff.mp hback
          rw [List.append_nil]
          exact hattempt _ _ _ _ hfront
      | error fault =>
          obtain ⟨rfl, rfl⟩ := ends_pure_iff.mp hback
          rw [List.append_nil]
          exact hfailed hfront
  | succ retries ih =>
      intro history outcome hends
      unfold attempts at hends
      obtain ⟨front, back, given, rfl, hfront, hback⟩ := ends_bind_iff.mp hends
      cases given with
      | ok output =>
          obtain ⟨rfl, rfl⟩ := ends_pure_iff.mp hback
          rw [List.append_nil]
          exact hattempt _ _ _ _ hfront
      | error fault =>
          obtain ⟨now, rest, rfl, hrest⟩ := ends_query_bind_iff.mp hback
          intro hkind
          split at hrest
          · dsimp only at hrest
            split at hrest
            · obtain ⟨pause, later, _, rfl, -, hlater⟩ := ends_bind_iff.mp hrest
              exact ((ih _ _ _ _ hlater hkind).append_left (_ :: pause)).append_left front
            · exact ((ih _ _ _ _ hrest hkind).append_left [_]).append_left front
          · obtain ⟨rfl, rfl⟩ := ends_pure_iff.mp hrest
            exact (hfailed hfront hkind).append_idle (List.forall_mem_singleton.mpr trivial)

theorem justifies_execute (hcredentials : client.config.credentials.isSome = true) {command : Command}
    {outcome : Except Fault Command.Output} (h : (client.execute command).run.Ends history outcome) :
    Justifies outcome history := by
  unfold execute at h
  refine justifies_lift_bind (fun payload => ?_) h
  exact accounting_ask_bind fun now => accounting_ask_bind fun id =>
    accounting_attempts hcredentials _ _ _ _ _ _ _

/-! ### Reading an answer -/

theorem watches_idle (limits : Limits) :
    FrameReader.Watches limits fun _ history => ∀ event ∈ history, event.question.IsIdle :=
  FrameReader.watches_forall trivial fun _ => trivial

theorem accounts_openBatch (hcredentials : client.config.credentials.isSome = true) {policy : Policy}
    {slots : List Batch.Slot} {opened : Except Fault FrameReader}
    (h : (client.openBatch policy slots).run.Ends history opened) :
    (∃ fault, opened = .error fault) ∧ history = [] ∨ Accounts opened history := by
  unfold openBatch at h
  refine accounts_lift_bind (fun payload => ?_) h
  refine accounting_ask_bind fun now => accounting_ask_bind fun id => ?_
  exact (accounting_stream hcredentials).bind fun stream => asks_pure _

theorem justifies_batch (hcredentials : client.config.credentials.isSome = true) {policy : Policy}
    {slots result : List Batch.Slot} {outcome : Except Fault Bool}
    (h : (client.batch policy slots).Ends history (outcome, result)) : Justifies outcome history := by
  unfold batch at h
  dsimp only at h
  split at h
  · obtain ⟨rfl, -⟩ := ends_pure_iff.mp h
    exact justifies_nil
  obtain ⟨exchanging, last, ⟨given, tally⟩, rfl, hexchange, hlast⟩ := ends_bind_iff.mp h
  have hsilent : last = [] ∧ ∀ fault, outcome = .error fault → given = .error fault := by
    rcases given with fault | ⟨⟩
    · obtain ⟨rfl, hpair⟩ := ends_pure_iff.mp hlast
      obtain ⟨rfl, -⟩ := Prod.mk.inj hpair
      exact ⟨rfl, fun _ hfault => congrArg Except.error (Except.error.inj hfault)⟩
    · obtain ⟨rfl, hpair⟩ := ends_pure_iff.mp hlast
      obtain ⟨rfl, -⟩ := Prod.mk.inj hpair
      exact ⟨rfl, nofun⟩
  obtain ⟨rfl, houtcome⟩ := hsilent
  rw [List.append_nil]
  intro fault hfault hkind
  obtain rfl := houtcome fault hfault
  unfold exchangeBatch at hexchange
  obtain ⟨opening, back, opened, rfl, hopen, hback⟩ := ends_bind_iff.mp hexchange
  cases opened with
  | error refused =>
      obtain ⟨rfl, hpair⟩ := ends_pure_iff.mp hback
      obtain ⟨hsame, -⟩ := Prod.mk.inj hpair
      obtain rfl := Except.error.inj hsame
      rw [List.append_nil]
      rcases accounts_openBatch hcredentials hopen with ⟨-, rfl⟩ | haccounts
      · exact .inr rfl
      · exact justifies_of_accounts haccounts fault rfl hkind
  | ok reader =>
      obtain ⟨reading, silent, ⟨read, state⟩, rfl, hreading, hsilent⟩ := ends_bind_iff.mp hback
      obtain ⟨rfl, -⟩ := ends_pure_iff.mp hsilent
      rw [List.append_nil]
      rcases accounts_openBatch hcredentials hopen with ⟨⟨_, hrefused⟩, -⟩ | haccounts
      · cases hrefused
      · have hidle := ((watches_idle reader.limits).traces_reassembly _ ⟨reader, { slots := _ }⟩ _ _ _
          rfl hreading).2
        exact .inl ((haccounts nofun).append_idle hidle)

/-! ### Background tasks -/

theorem justifies_startTask (hcredentials : client.config.credentials.isSome = true) {policy : Policy}
    {statement : Statement} {outcome : Except Fault Task}
    (h : (client.startTask policy statement).run.Ends history outcome) : Justifies outcome history := by
  have hsubmit : ∀ {taskId history},
      (client.submitTask policy statement taskId).run.Ends history outcome →
      Justifies outcome history := by
    intro taskId history hends
    refine justifies_lift_bind (fun message => ?_) hends
    refine accounting_ask_bind fun id => accounting_ask_bind fun now => ?_
    refine (accounting_unary hcredentials).bind fun response => ?_
    exact asks_run_bind (asks_run_lift _) fun _ => asks_pure _
  rw [startTask_eq] at h
  split at h
  · obtain ⟨rfl, -⟩ := ends_pure_iff.mp h
    exact justifies_nil
  · split at h
    · obtain ⟨taskId, rest, rfl, hrest⟩ := ends_run_query_bind_iff.mp h
      intro fault hfault hkind
      exact (hsubmit hrest fault hfault hkind).imp_left fun hrest => hrest.append_left [_]
    · exact hsubmit h

theorem accounting_taskStatus (hcredentials : client.config.credentials.isSome = true) (task : Task) :
    Accounting (client.taskStatus task) := by
  unfold taskStatus
  refine accounting_ask_bind fun id => accounting_ask_bind fun now => ?_
  refine (accounting_unary hcredentials).bind fun response => ?_
  exact asks_run_bind (asks_run_lift _) fun _ => asks_pure _

/-- Of all questions about a task only the last one can fail. The induction is on the questions that are
left. -/
theorem explained_of_pollTask (hcredentials : client.config.credentials.isSome = true) {task : Task}
    {interval : Time} {deadline : Option Time} {questions : Nat} {fault : Fault}
    (h : (client.pollTask task interval deadline questions).run.Ends history (.error fault))
    (hkind : fault.kind = .notAuthenticated) : Explained history := by
  induction questions generalizing history with
  | zero => cases (ends_pure_iff.mp h).2
  | succ questions ih =>
      unfold pollTask at h
      rcases ends_run_bind_iff.mp h with ⟨_, hfault, hsame⟩ | ⟨front, back, status, rfl, -, hback⟩
      · obtain rfl := Except.error.inj hsame
        refine accounting_taskStatus hcredentials task _ _ hfault ?_
        rintro _ ⟨⟩
        exact hkind
      cases status with
      | complete => cases (ends_pure_iff.mp hback).2
      | notFound =>
          obtain rfl := Except.error.inj (ends_pure_iff.mp hback).2
          cases hkind
      | inProgress =>
          obtain ⟨now, rest, rfl, hrest⟩ := ends_run_query_bind_iff.mp hback
          dsimp only at hrest
          split at hrest
          · obtain rfl := Except.error.inj (ends_pure_iff.mp hrest).2
            cases hkind
          · rcases ends_run_bind_iff.mp hrest with ⟨_, hpause, -⟩ | ⟨pause, later, _, rfl, -, hlater⟩
            · obtain ⟨_, _, _, -, -, hlast⟩ := ends_bind_iff.mp hpause
              cases (ends_pure_iff.mp hlast).2
            · exact ((ih hlater).append_left (_ :: pause)).append_left front

/-! ### Record sets -/

theorem explained_of_plays {producer : RecordSet.Producer} {round : RecordSet.Played} {fault : Fault}
    (hopen : ∀ filter iteration, Accounting (ExceptT.mk (producer.openRound filter iteration)))
    (h : RecordSet.Plays producer history round) (hresult : round.result = .error fault)
    (hkind : fault.kind = .notAuthenticated) : Explained history := by
  cases h with
  | refused hrefused =>
      refine hopen _ _ _ _ hrefused ?_
      rintro _ ⟨⟩
      obtain rfl := Except.error.inj hresult
      exact hkind
  | answered hopened hrun =>
      have hidle := ((watches_idle producer.limits).traces_round (fun _ _ _ => by simp [Ask.IsIdle]) _ _ _ _
        rfl hrun).2
      exact (hopen _ _ _ _ hopened nofun).append_idle hidle

/-- The last item of a set is explained by the last round. -/
theorem explained_of_course {producer : RecordSet.Producer} {retries : Nat}
    {tracker : Partition.Tracker} {rounds : List RecordSet.Played} {item : Option RecordSet.Item}
    {fault : Fault}
    (hopen : ∀ filter iteration, Accounting (ExceptT.mk (producer.openRound filter iteration)))
    (h : RecordSet.Course producer retries tracker history rounds item)
    (hitem : item = some (.failed fault)) (hkind : fault.kind = .notAuthenticated) :
    Explained history := by
  induction h with
  | cancelled =>
      obtain rfl := RecordSet.Item.failed.inj (Option.some.inj hitem)
      cases hkind
  | @last _ front round _ hplays hverdict =>
      subst hitem
      refine Explained.append_left ?_ [_]
      unfold RecordSet.Played.verdict at hverdict
      have hnone : ∀ {next : Partition.Tracker}, RecordSet.Verdict.of next ≠
          .ends (some (.failed fault)) := by
        intro next
        unfold RecordSet.Verdict.of
        split <;> simp
      split at hverdict
      · cases hverdict
      · cases hverdict
      · exact absurd hverdict hnone
      · next given hresult =>
          split at hverdict
          · exact absurd hverdict hnone
          · obtain ⟨⟩ := hverdict
            exact explained_of_plays hopen hplays hresult hkind
  | exhausted =>
      obtain rfl := RecordSet.Item.failed.inj (Option.some.inj hitem)
      cases hkind
  | @again _ front pause back _ _ _ _ _ _ _ _ ih =>
      exact (((ih hitem).append_left pause).append_left front).append_left [_]

theorem callsIn_begin {set : Nat} {making : Making Stream} {outcome : Except Fault Stream}
    (hbegins : BeginsSet client set making) (h : making.run.Ends history outcome) :
    callsIn history = [] := by
  have hlasting : Lasting fun _ history => callsIn history = [] :=
    ⟨fun _ => rfl, fun hfront hback => by rw [callsIn_append, hfront, hback, List.append_nil]⟩
  refine leaves_begin hlasting ?_ hbegins _ _ h
  rintro ⟨question, answer⟩ hplain
  cases question <;> first | rfl | exact hplain.elim

/-! ### All calls -/

/-- Whatever a client with credentials calls, and whatever the gateway answers: each time a call is rejected
as a whole as unauthenticated, the client asks for a new login before anything else, and it never does so
otherwise. So a call that fails since the client is not authenticated has asked for a new login last, has
been told so in the answer to an accepted request, or has no token. -/
theorem login_renewed_on_rejection (hcredentials : client.config.credentials.isSome = true) :
    (∀ command history outcome, (client.execute command).run.Ends history outcome →
      RenewsLogin history ∧ Justifies outcome history) ∧
    (∀ policy slots history outcome result,
      (client.batch policy slots).Ends history (outcome, result) →
      RenewsLogin history ∧ Justifies outcome history) ∧
    (∀ policy statement history outcome, (client.startTask policy statement).run.Ends history outcome →
      RenewsLogin history ∧ Justifies outcome history) ∧
    (∀ task history outcome, (client.taskStatus task).run.Ends history outcome →
      RenewsLogin history ∧ Justifies outcome history) ∧
    (∀ task interval timeout questions history outcome,
      (client.awaitTask task interval timeout questions).run.Ends history outcome →
      RenewsLogin history ∧ Justifies outcome history) ∧
    ∀ set making history outcome, BeginsSet client set making → making.run.Ends history outcome →
      (RenewsLogin history ∧ callsIn history = []) ∧
      ∀ begun, outcome = .ok begun → ∀ retries tracker later item,
        (begun.producer.rounds retries tracker).Ends later item →
          RenewsLogin later ∧ ∀ fault, item = some (.failed fault) → fault.kind = .notAuthenticated →
            Explained later := by
  have hmarks := marks_renews hcredentials client.scope
  refine ⟨fun command history outcome h => ?_, fun policy slots history outcome result h => ?_,
    fun policy statement history outcome h => ?_, fun task history outcome h => ?_,
    fun task interval timeout questions history outcome h => ?_,
    fun set making history outcome hbegins h => ⟨⟨?_, callsIn_begin hbegins h⟩, ?_⟩⟩
  · have hcourse : RenewalCourse history := hmarks.leaves_execute rfl command _ _ h
    exact ⟨hcourse.renewsLogin, justifies_execute hcredentials h⟩
  · have hcourse : RenewalCourse history := hmarks.always_batch rfl policy slots _ _ h
    exact ⟨hcourse.renewsLogin, justifies_batch hcredentials h⟩
  · have hcourse : RenewalCourse history := hmarks.leaves_startTask rfl policy statement _ _ h
    exact ⟨hcourse.renewsLogin, justifies_startTask hcredentials h⟩
  · have hcourse : RenewalCourse history := hmarks.leaves_taskStatus rfl task _ _ h
    exact ⟨hcourse.renewsLogin, justifies_of_accounts (accounting_taskStatus hcredentials task _ _ h)⟩
  · have hcourse : RenewalCourse history :=
      hmarks.leaves_awaitTask rfl task interval timeout questions _ _ h
    refine ⟨hcourse.renewsLogin, ?_⟩
    rintro fault rfl hkind
    obtain ⟨now, rest, rfl, hrest⟩ := ends_run_query_bind_iff.mp h
    exact .inl ((explained_of_pollTask hcredentials hrest hkind).append_left [_])
  · have hcourse : RenewalCourse history :=
      leaves_begin hmarks.toLasting hmarks.plain hbegins _ _ h
    exact hcourse.renewsLogin
  · rintro begun rfl retries tracker later item hends
    have hrounds := marks_renews hcredentials (.recordSet set)
    have hcourse : RenewalCourse later :=
      hrounds.always_begun rfl hbegins h retries tracker _ _ hends
    refine ⟨hcourse.renewsLogin, fun fault hitem hkind => ?_⟩
    obtain ⟨rounds, hplayed⟩ := RecordSet.rounds_course retries tracker later item hends
    obtain ⟨_, ⟨-⟩⟩ := hbegins.repeats h
    refine explained_of_course (fun filter iteration => ?_) hplayed hitem hkind
    exact accounting_stream hcredentials

/-- A client with credentials. -/
def knownClient : Client :=
  { bareClient with config := { credentials := some { user := "", password := "" } } }

/-- A gateway that gives the same reply to every request, and a token to whoever asks for one. -/
def replying (reply : Except Status Envelope.Response) : Surroundings
  | _, .send _ => ⟨some 0, reply⟩
  | _, .credential _ => .token ""
  | _, question => calmAnswer question

/-- Whether something of the history asks for a new login. -/
def asksRenewal (history : History) : Bool :=
  history.any fun event => match event.question with
    | .renewCredential => true
    | _ => false

/-- The gateway rejects a read, and the client asks for a new login. -/
theorem rejected_read_renews_login :
    ∃ history fault, (knownClient.execute getOnce).run.Ends history (.error fault) ∧
      fault.kind = .notAuthenticated ∧ RenewsLogin history ∧ Explained history ∧
      asksRenewal history = true := by
  let rejecting := replying (.error ⟨.unauthenticated, "", []⟩)
  obtain ⟨history, hhistory, hends⟩ := ends_runIn rejecting (knownClient.execute getOnce).run []
  rw [List.nil_append] at hhistory
  have hkind : (faultOf? ((knownClient.execute getOnce).run.runIn rejecting []).1).map (·.kind) =
      some .notAuthenticated := by
    decide +kernel
  have hcalls : (callsIn history).length = 1 ∧ asksRenewal history = true := by
    rw [← hhistory]
    decide +kernel
  obtain ⟨fault, hfault, hkind⟩ := Option.map_eq_some_iff.mp hkind
  rw [eq_error_of_faultOf? hfault] at hends
  obtain ⟨hrenews, hjustifies⟩ :=
    (@login_renewed_on_rejection knownClient rfl).1 getOnce history _ hends
  have hexplained := (hjustifies fault rfl hkind).resolve_right fun hnone => by simp [hnone] at hcalls
  exact ⟨history, fault, hends, hkind, hrenews, hexplained, hcalls.2⟩

/-- The reply says in its envelope that the client is not authenticated, and no login is asked for. -/
theorem login_not_renewed_on_reply :
    ¬ ∀ (client : Client) (command : Command) (history : History) (fault : Fault) (call : Call)
        (delay : Option Time) (response : Envelope.Response),
      client.config.credentials.isSome = true →
      (client.execute command).run.Ends history (.error fault) →
      (⟨.send call, ⟨delay, .ok response⟩⟩ : Event) ∈ history →
      response.status.toInt = ResultCode.notAuthenticated → fault.kind = .notAuthenticated →
      asksRenewal history = true := by
  intro hall
  let denying := replying (.ok { status := 80 })
  obtain ⟨history, hhistory, hends⟩ := ends_runIn denying (knownClient.execute getOnce).run []
  rw [List.nil_append] at hhistory
  have hkind : (faultOf? ((knownClient.execute getOnce).run.runIn denying []).1).map (·.kind) =
      some .notAuthenticated := by
    decide +kernel
  have hreply : ((attemptsIn history).head?.bind fun attempt => attempt.reply.value.toOption).map
      (·.status.toInt) = some 80 ∧ asksRenewal history = false := by
    rw [← hhistory]
    decide +kernel
  obtain ⟨fault, hfault, hkind⟩ := Option.map_eq_some_iff.mp hkind
  rw [eq_error_of_faultOf? hfault] at hends
  obtain ⟨response, hresponse, hstatus⟩ := Option.map_eq_some_iff.mp hreply.1
  obtain ⟨attempt, hattempt, hvalue⟩ := Option.bind_eq_some_iff.mp hresponse
  have hmem := mem_of_mem_attemptsIn (List.mem_of_head? hattempt)
  obtain ⟨⟨call, ⟨delay, value⟩, limits, waited⟩, reviewed⟩ := attempt
  cases value with
  | error status => cases hvalue
  | ok given =>
      obtain rfl := Option.some.inj hvalue
      rw [hall _ _ _ _ _ _ _ rfl hends hmem hstatus hkind] at hreply
      cases hreply.2

end Client
end RecordGateway
