import RecordGateway.Client.Single
import RecordGateway.Proofs.Client.Opening

/-!
The attempts of a command on a single record. A history shows them: each hands a request over and waits
for the reply (`attemptsIn`). `Course` says once what a run of attempts can do, and `execute_course` that
a command does nothing else; what the requests repeat, how many there are, which of them are followed by
another, and what the last one leaves to the caller are read off it.
-/

namespace RecordGateway

open RecordGateway.Flow

/-- A request that was handed over, and the wait for its reply. -/
structure Exchange where
  call : Call
  reply : Delayed (Except Status Envelope.Response)
  /-- Under which limits the reply was waited for. -/
  limits : Limits
  waited : Waited

structure Attempt extends Exchange where
  /-- When it was considered whether another attempt may follow, if that was considered. -/
  reviewed : Option Time

def Event.clock? : Event → Option Time
  | ⟨.clock, now⟩ => some now
  | _ => none

/-- The attempts that a history shows, the first one first. -/
def attemptsIn : History → List Attempt
  | ⟨.send call, reply⟩ :: ⟨.clock, _⟩ :: ⟨.wait _ limits, waited⟩ :: later =>
    { call, reply, limits, waited, reviewed := later.findSome? Event.clock? } :: attemptsIn later
  | _ :: later => attemptsIn later
  | [] => []

theorem attemptsIn_append {front : History} (hfront : ∀ event ∈ front, event.question.IsLocal)
    (back : History) : attemptsIn (front ++ back) = attemptsIn back := by
  induction front with
  | nil => rfl
  | cons event front ih =>
      rw [List.forall_mem_cons] at hfront
      obtain ⟨question, answer⟩ := event
      cases question with
      | send call => exact hfront.1.elim
      | _ => exact ih hfront.2

theorem mem_of_mem_attemptsIn {history : History} {attempt : Attempt}
    (h : attempt ∈ attemptsIn history) :
    (⟨.send attempt.call, attempt.reply⟩ : Event) ∈ history := by
  fun_induction attemptsIn history with
  | case1 call reply _ _ limits waited later ih =>
      rcases List.mem_cons.mp h with rfl | h
      · exact List.mem_cons_self
      · exact List.mem_cons_of_mem _ (List.mem_cons_of_mem _ (List.mem_cons_of_mem _ (ih h)))
  | case2 _ _ _ ih => exact List.mem_cons_of_mem _ (ih h)
  | case3 => cases h

/-- The requests that a history hands over, of whatever kind. -/
def callsIn (history : History) : List Call :=
  history.filterMap fun
    | ⟨.send call, _⟩ => some call
    | ⟨.openStream call, _⟩ => some call
    | _ => none

@[simp] theorem callsIn_append (front back : History) :
    callsIn (front ++ back) = callsIn front ++ callsIn back :=
  List.filterMap_append

theorem callsIn_of_local {history : History}
    (hlocal : ∀ event ∈ history, event.question.IsLocal) : callsIn history = [] := by
  rw [callsIn, List.filterMap_eq_nil_iff]
  intro event hmem
  have hevent := hlocal event hmem
  obtain ⟨question, answer⟩ := event
  cases question with
  | send call => exact hevent.elim
  | openStream call => exact hevent.elim
  | _ => rfl

theorem attemptsIn_of_local {history : History}
    (hlocal : ∀ event ∈ history, event.question.IsLocal) : attemptsIn history = [] := by
  rw [← List.append_nil history, attemptsIn_append hlocal]
  rfl

namespace Exchange

variable (exchange : Exchange) (client : Client) (command : Command)

/-- What came in answer to a request. -/
def received (reporter : Fault.Reporter) : Except Fault Envelope.Response :=
  match exchange.waited with
  | .cancelled => .error .callCancelled
  | .timedOut => .error (.deadlineExceeded exchange.limits.isWrite)
  | .arrived =>
    match exchange.reply.value with
    | .ok response => .ok response
    | .error status => .error (reporter.ofStatus status exchange.limits.isWrite)

/-- What an exchange means for the command that it was made for. -/
def outcome : Except Fault Command.Output :=
  exchange.received client.reporter >>= client.readReply command

/-- Whether an exchange fails and leaves it open what became of the record. -/
def leavesDoubt : Bool :=
  match exchange.outcome client command with
  | .ok _ => false
  | .error fault => fault.inDoubt

/-- What the attempt with a given number hands over, and how long it waits. -/
structure Fits (payload : Bytes) (id : UInt32) (total : Option Time) (iteration : Nat) : Prop where
  request_eq : exchange.call.request =
    Client.envelope id iteration.toUInt32 payload command.policy command.isWrite
  limits_eq : ∃ began, exchange.limits =
    { deadline := command.policy.attemptDeadline began total
      scope := client.scope
      isWrite := command.isWrite }

end Exchange

theorem Exchange.leavesDoubt_of_error {exchange : Exchange} {client : Client} {command : Command}
    {fault : Fault} (h : exchange.outcome client command = .error fault) :
    exchange.leavesDoubt client command = fault.inDoubt := by
  rw [leavesDoubt, h]

/-- Another attempt may help: the gateway was not there, or time ran out for this attempt and not for the
whole call. -/
def Attempt.Repeatable (attempt : Attempt) (client : Client) (command : Command)
    (total : Option Time) : Prop :=
  ∃ fault, attempt.outcome client command = .error fault ∧
    (fault.kind = .serverUnavailable ∨
      fault.kind = .timeout ∧ ∀ limit, total = some limit →
        ∃ now, attempt.reviewed = some now ∧ now < limit)

namespace Client

variable {client : Client} {method : Method} {request : Envelope.Request} {limits : Limits}
  {history : History}

/-! ### One exchange -/

/-- Why a client hands nothing over: it cannot say who it is, or the call is already cancelled. Trying
again helps against neither. -/
structure Refusal (client : Client) (cancelled : Prop) (fault : Fault) : Prop where
  kind_mem : fault.kind ∈ [Fault.Kind.client, .notAuthenticated, .cancelled]
  inDoubt_eq : fault.inDoubt = false
  cause : isHeaderText client.config.clientVersion = true → client.config.credentials = none →
    cancelled

theorem Refusal.mono {cancelled wider : Prop} {fault : Fault} (h : Refusal client cancelled fault)
    (hwider : cancelled → wider) : Refusal client wider fault :=
  ⟨h.kind_mem, h.inDoubt_eq, fun hversion hnone => hwider (h.cause hversion hnone)⟩

theorem authorization_fault {fault : Fault}
    (h : (client.authorization limits).run.Ends history (.error fault)) :
    Refusal client False fault := by
  unfold authorization at h
  by_cases hnone : client.config.credentials = none
  · rw [hnone] at h
    obtain ⟨-, hfault⟩ := ends_pure_iff.mp h
    cases hfault
  · have hsome : client.config.credentials.isNone = false := by
      rwa [Option.isNone_eq_false_iff, Option.isSome_iff_ne_none]
    rw [hsome] at h
    obtain ⟨answer, rest, rfl, hrest⟩ := ends_run_query_bind_iff.mp h
    cases answer with
    | token text =>
        dsimp only at hrest
        split at hrest
        · obtain ⟨-, hfault⟩ := ends_pure_iff.mp hrest
          obtain rfl := Except.error.inj hfault
          exact ⟨by simp [Fault.client, Fault.ofKind], rfl, fun _ h => hnone h⟩
        · obtain ⟨-, hfault⟩ := ends_pure_iff.mp hrest
          cases hfault
    | _ =>
        obtain ⟨-, hfault⟩ := ends_pure_iff.mp hrest
        obtain rfl := Except.error.inj hfault
        exact ⟨by simp [Fault.notAuthenticated, Fault.callCancelled, Fault.ofKind], rfl,
          fun _ h => hnone h⟩

theorem prepare_fault {fault : Fault}
    (h : (client.prepare method request limits).run.Ends history (.error fault)) :
    Refusal client False fault := by
  unfold prepare at h
  obtain ⟨now, rest, rfl, hrest⟩ := ends_run_query_bind_iff.mp h
  dsimp only at hrest
  split at hrest
  · next hversion =>
      obtain ⟨-, hfault⟩ := ends_pure_iff.mp hrest
      obtain rfl := Except.error.inj hfault
      refine ⟨by simp [Fault.client, Fault.ofKind], rfl, fun htext _ => ?_⟩
      rw [htext] at hversion
      cases hversion
  · rcases ends_run_bind_iff.mp hrest with ⟨fault, hauthorization, hfault⟩ | ⟨_, _, _, -, -, hmade⟩
    · obtain rfl := Except.error.inj hfault
      exact authorization_fault hauthorization
    · obtain ⟨-, hfault⟩ := ends_pure_iff.mp hmade
      cases hfault

/-- A history hands one request over, and waits for the reply to it. -/
inductive Shows (exchange : Exchange) : History → Prop where
  | intro {front rest : History} {now : Time} {due : Option Time} :
      (∀ event ∈ front, event.question.IsLocal) → IsRenewal rest →
      Shows exchange (front ++ ⟨.send exchange.call, exchange.reply⟩ :: ⟨.clock, now⟩ ::
        ⟨.wait due exchange.limits, exchange.waited⟩ :: rest)

/-- What a call with one response comes to. -/
inductive Exchanged (client : Client) (request : Envelope.Request) (limits : Limits) :
    History → Except Fault Envelope.Response → Prop where
  | refused {history : History} {fault : Fault} :
      (∀ event ∈ history, event.question.IsLocal) →
      Refusal client ((⟨.isCancelled limits.scope, true⟩ : Event) ∈ history) fault →
      Exchanged client request limits history (.error fault)
  | handed {history : History} {exchange : Exchange} :
      Shows exchange history → exchange.call.request = request → exchange.limits = limits →
      Exchanged client request limits history (exchange.received client.reporter)

theorem unary_cases {result : Except Fault Envelope.Response}
    (h : (client.unary method request limits).run.Ends history result) :
    Exchanged client request limits history result := by
  unfold unary at h
  rcases ends_run_bind_iff.mp h with
    ⟨fault, hprepare, rfl⟩ | ⟨front, back, call, rfl, hprepare, hexchange⟩
  · exact .refused (asks_prepare _ _ hprepare) ((prepare_fault hprepare).mono False.elim)
  have hfront := asks_prepare _ _ hprepare
  have hbefore : ∀ cancelled, ∀ event ∈ front ++ [⟨.isCancelled limits.scope, cancelled⟩],
      event.question.IsLocal := by
    intro cancelled
    rw [List.forall_mem_append, List.forall_mem_singleton]
    exact ⟨hfront, trivial⟩
  obtain rfl := request_prepare hprepare
  cases exchange_cases hexchange with
  | refused =>
      exact .refused (hbefore true)
        ⟨by simp [Fault.callCancelled, Fault.ofKind], rfl, fun _ _ => by simp⟩
  | @waited _ rest reply now waited result hhand hsettled =>
      obtain rfl := ends_query_iff.mp hhand
      have hrenewal := hsettled.isRenewal
      have hreceived : Exchange.received ⟨call, reply, limits, waited⟩ client.reporter = result := by
        obtain ⟨delay, value⟩ := reply
        cases hsettled with
        | cancelled | timedOut => rfl
        | arrived hvalue | rejected hvalue =>
            obtain rfl := hvalue
            rfl
      obtain rfl := hreceived
      rw [List.append_cons]
      exact .handed (@Shows.intro ⟨call, reply, limits, waited⟩ _ _ _ _ (hbefore false) hrenewal)
        rfl rfl

/-! ### One attempt -/

namespace Shows

variable {exchange : Exchange}

theorem cons {event : Event} (hlocal : event.question.IsLocal) (h : Shows exchange history) :
    Shows exchange (event :: history) := by
  obtain ⟨hfront, hrest⟩ := h
  rw [← List.cons_append]
  refine .intro ?_ hrest
  rw [List.forall_mem_cons]
  exact ⟨hlocal, hfront⟩

theorem attemptsIn_append (h : Shows exchange history) (back : History) :
    attemptsIn (history ++ back) =
      { exchange with reviewed := back.findSome? Event.clock? } :: attemptsIn back := by
  obtain @⟨front, rest, now, due, hfront, hrest⟩ := h
  have hclock : (rest ++ back).findSome? Event.clock? = back.findSome? Event.clock? := by
    rw [List.findSome?_append, List.findSome?_eq_none_iff.mpr, Option.none_or]
    intro event hmem
    obtain ⟨question, answer⟩ := event
    obtain rfl := hrest _ hmem
    rfl
  rw [List.append_assoc, RecordGateway.attemptsIn_append hfront]
  show { exchange with reviewed := (rest ++ back).findSome? Event.clock? } ::
    attemptsIn (rest ++ back) = _
  rw [hclock, RecordGateway.attemptsIn_append hrest.isLocal]

theorem callsIn_eq (h : Shows exchange history) : callsIn history = [exchange.call] := by
  obtain @⟨front, rest, now, due, hfront, hrest⟩ := h
  rw [callsIn_append, callsIn_of_local hfront]
  show exchange.call :: callsIn rest = _
  rw [callsIn_of_local hrest.isLocal]

end Shows

variable {command : Command} {payload : Bytes} {id : UInt32} {total : Option Time} {iteration : Nat}

/-- What one attempt comes to, whatever happens after it. -/
inductive Attempted (client : Client) (command : Command) (payload : Bytes) (id : UInt32)
    (total : Option Time) (iteration : Nat) : History → Except Fault Command.Output → Prop where
  | refused {history : History} {fault : Fault} :
      (∀ event ∈ history, event.question.IsLocal) →
      Refusal client ((⟨.isCancelled client.scope, true⟩ : Event) ∈ history) fault →
      Attempted client command payload id total iteration history (.error fault)
  | handed {history : History} {exchange : Exchange} :
      exchange.Fits client command payload id total iteration → Shows exchange history →
      Attempted client command payload id total iteration history (exchange.outcome client command)

/-- What came in answer to the request of an attempt settles the attempt. -/
theorem Exchanged.attempted {began : Time} {received : Except Fault Envelope.Response}
    (h : Exchanged client (envelope id iteration.toUInt32 payload command.policy command.isWrite)
      { deadline := command.policy.attemptDeadline began total
        scope := client.scope
        isWrite := command.isWrite } history received) :
    Attempted client command payload id total iteration (⟨.clock, began⟩ :: history)
      (received >>= client.readReply command) := by
  cases h with
  | refused hlocal hrefusal =>
      refine .refused ?_ (hrefusal.mono fun hcancelled => List.mem_cons_of_mem _ hcancelled)
      rw [List.forall_mem_cons]
      exact ⟨trivial, hlocal⟩
  | handed hshows hrequest hlimits =>
      exact .handed ⟨hrequest, began, hlimits⟩ (hshows.cons trivial)

theorem attempt_cases {outcome : Except Fault Command.Output}
    (h : (client.attempt command payload id iteration total).run.Ends history outcome) :
    Attempted client command payload id total iteration history outcome := by
  unfold attempt at h
  obtain ⟨began, rest, rfl, hrest⟩ := ends_run_query_bind_iff.mp h
  dsimp only at hrest
  rcases ends_run_bind_iff.mp hrest with
    ⟨fault, hunary, rfl⟩ | ⟨front, back, response, rfl, hunary, hreply⟩
  · exact (unary_cases hunary).attempted
  · obtain ⟨rfl, rfl⟩ := ends_run_lift_iff.mp hreply
    rw [List.append_nil]
    exact (unary_cases hunary).attempted

/-! ### Attempts one after the other -/

theorem mayRetry_iff {fault : Fault} {now : Time} :
    mayRetry fault now total = true ↔
      fault.kind = .serverUnavailable ∨
        fault.kind = .timeout ∧ ∀ limit, total = some limit → now < limit := by
  unfold mayRetry
  cases fault.kind <;> cases total <;> simp

/-- What follows an attempt: nothing, the decision that none follows, or further attempts. -/
inductive Followed (client : Client) (command : Command) (payload : Bytes) (id : UInt32)
    (total : Option Time) (iteration : Nat) (doubt : Bool) :
    Nat → Except Fault Command.Output → History → Except Fault Command.Output → Prop where
  | succeeded {retries : Nat} {output : Command.Output} :
      Followed client command payload id total iteration doubt retries (.ok output) [] (.ok output)
  | failed {retries : Nat} {fault : Fault} {history : History} :
      (∀ event ∈ history, event.question.IsLocal) →
      (retries = 0 ∨ ∃ now, history = [⟨.clock, now⟩] ∧ mayRetry fault now total = false) →
      Followed client command payload id total iteration doubt retries (.error fault) history
        (.error { fault with
          inDoubt := fault.inDoubt || (doubt || (command.isWrite && fault.inDoubt))
          iteration := some iteration })
  | repeated {retries : Nat} {fault : Fault} {now : Time} {pause rest : History}
      {result : Except Fault Command.Output} :
      (∀ event ∈ pause, event.question.IsLocal) → mayRetry fault now total = true →
      (client.attempts command payload id total retries (iteration + 1)
        (doubt || (command.isWrite && fault.inDoubt))).Ends rest result →
      Followed client command payload id total iteration doubt (retries + 1) (.error fault)
        (⟨.clock, now⟩ :: (pause ++ rest)) result

variable {retries : Nat} {doubt : Bool} {result : Except Fault Command.Output}

theorem attempts_cases
    (h : (client.attempts command payload id total retries iteration doubt).Ends history result) :
    ∃ front back outcome, history = front ++ back ∧
      (client.attempt command payload id iteration total).run.Ends front outcome ∧
      Followed client command payload id total iteration doubt retries outcome back result := by
  unfold attempts at h
  obtain ⟨front, back, outcome, rfl, hattempt, hback⟩ := ends_bind_iff.mp h
  refine ⟨front, back, outcome, rfl, hattempt, ?_⟩
  cases outcome with
  | ok output =>
      obtain ⟨rfl, rfl⟩ := ends_pure_iff.mp hback
      exact .succeeded
  | error fault =>
      cases retries with
      | zero =>
          obtain ⟨rfl, rfl⟩ := ends_pure_iff.mp hback
          exact .failed (by simp) (.inl rfl)
      | succ retries =>
          obtain ⟨now, rest, rfl, hrest⟩ := ends_query_bind_iff.mp hback
          by_cases hretry : mayRetry fault now total = true
          · rw [if_pos hretry] at hrest
            by_cases hsleep : command.policy.sleepBetweenRetries ≠ 0
            · rw [if_pos hsleep] at hrest
              obtain ⟨pause, later, span, rfl, hpause, hlater⟩ := ends_bind_iff.mp hrest
              exact .repeated (asks_sleep _ _ _ hpause) hretry hlater
            · rw [if_neg hsleep] at hrest
              have hsilent : ∀ event ∈ ([] : History), event.question.IsLocal := by simp
              exact .repeated hsilent hretry hrest
          · rw [if_neg hretry] at hrest
            obtain ⟨rfl, rfl⟩ := ends_pure_iff.mp hrest
            exact .failed (by simp [Ask.IsLocal]) (.inr ⟨now, rfl, Bool.eq_false_iff.mpr hretry⟩)

/-- A run of attempts with the given numbers of retries and of its first attempt: each but the last may be
repeated, and the last may not, or there are no retries left, or the client has handed nothing over in
the end. Its outcome is that of the attempt with the number `last`. -/
inductive Course (cancelled : Prop) (client : Client) (command : Command) (payload : Bytes)
    (id : UInt32) (total : Option Time) :
    Nat → Nat → List Attempt → Except Fault Command.Output → Nat → Prop where
  | refused {retries iteration : Nat} {fault : Fault} :
      Refusal client cancelled fault →
      Course cancelled client command payload id total retries iteration [] (.error fault) iteration
  | final {retries iteration : Nat} {attempt : Attempt} :
      attempt.Fits client command payload id total iteration →
      (attempt.Repeatable client command total → retries = 0) →
      Course cancelled client command payload id total retries iteration [attempt]
        (attempt.outcome client command) iteration
  | again {retries iteration last : Nat} {attempt : Attempt} {rest : List Attempt}
      {outcome : Except Fault Command.Output} :
      attempt.Fits client command payload id total iteration →
      attempt.Repeatable client command total →
      Course cancelled client command payload id total retries (iteration + 1) rest outcome last →
      Course cancelled client command payload id total (retries + 1) iteration (attempt :: rest)
        outcome last

/-- What the caller is told: of a fault also which attempt failed with it, and whether one of the
attempts of a write, or what was done before, has left doubt. -/
def report (client : Client) (command : Command) (doubt : Bool) (tried : List Attempt)
    (outcome : Except Fault Command.Output) (last : Nat) : Except Fault Command.Output :=
  match outcome with
  | .ok output => .ok output
  | .error fault => .error { fault with
      inDoubt := fault.inDoubt || doubt ||
        (command.isWrite && tried.any fun attempt => attempt.leavesDoubt client command)
      iteration := some last }

theorem report_refused {fault : Fault} (hsure : fault.inDoubt = false) :
    report client command doubt [] (.error fault) iteration =
      .error { fault with
        inDoubt := fault.inDoubt || (doubt || (command.isWrite && fault.inDoubt))
        iteration := some iteration } := by
  simp [report, hsure]

theorem report_final {fault : Fault} {attempt : Attempt}
    (houtcome : attempt.outcome client command = .error fault) :
    report client command doubt [attempt] (.error fault) iteration =
      .error { fault with
        inDoubt := fault.inDoubt || (doubt || (command.isWrite && fault.inDoubt))
        iteration := some iteration } := by
  have hdoubt := Exchange.leavesDoubt_of_error houtcome
  simp [report, hdoubt, Bool.or_assoc]

theorem report_again {fault : Fault} {attempt : Attempt} {rest : List Attempt}
    {outcome : Except Fault Command.Output} {last : Nat}
    (houtcome : attempt.outcome client command = .error fault) :
    report client command doubt (attempt :: rest) outcome last =
      report client command (doubt || (command.isWrite && fault.inDoubt)) rest outcome last := by
  have hdoubt := Exchange.leavesDoubt_of_error houtcome
  simp only [report, List.any_cons, hdoubt, Bool.and_or_distrib_left, Bool.or_assoc]

theorem Refusal.not_mayRetry {cancelled : Prop} {fault : Fault} {now : Time}
    (h : Refusal client cancelled fault) : mayRetry fault now total ≠ true := by
  have hkind := h.kind_mem
  simp only [List.mem_cons, List.not_mem_nil, or_false] at hkind
  rw [Ne, mayRetry_iff]
  rcases hkind with hkind | hkind | hkind <;> simp [hkind]

theorem repeatable_iff {attempt : Attempt} {fault : Fault} {now : Time}
    (houtcome : attempt.outcome client command = .error fault)
    (hreviewed : attempt.reviewed = some now) :
    attempt.Repeatable client command total ↔ mayRetry fault now total = true := by
  simp [Attempt.Repeatable, houtcome, hreviewed, mayRetry_iff]

theorem not_repeatable {attempt : Attempt} {output : Command.Output}
    (houtcome : attempt.outcome client command = .ok output) :
    ¬ attempt.Repeatable client command total := by
  rintro ⟨fault, hfault, -⟩
  rw [houtcome] at hfault
  cases hfault

/-- What a run of attempts comes to; it hands over the requests of its attempts and no others. The
induction is on the retries that are left. -/
theorem attempts_course {whole : History} (hwhole : history ⊆ whole)
    (h : (client.attempts command payload id total retries iteration doubt).Ends history result) :
    callsIn history = (attemptsIn history).map (·.call) ∧ ∃ outcome last,
      Course ((⟨.isCancelled client.scope, true⟩ : Event) ∈ whole) client command payload id total
        retries iteration (attemptsIn history) outcome last ∧
      result = report client command doubt (attemptsIn history) outcome last := by
  induction retries using Nat.strongRecOn generalizing iteration doubt history with
  | ind retries ih =>
      obtain ⟨front, back, outcome, rfl, hattempt, hfollowed⟩ := attempts_cases h
      rw [List.append_subset] at hwhole
      rw [callsIn_append]
      cases attempt_cases hattempt with
      | refused hlocal hrefusal =>
          rw [attemptsIn_append hlocal, callsIn_of_local hlocal]
          cases hfollowed with
          | failed hsilent hwhy =>
              rw [attemptsIn_of_local hsilent, callsIn_of_local hsilent]
              exact ⟨rfl, _, _, .refused (hrefusal.mono fun hcancelled => hwhole.1 hcancelled),
                (report_refused hrefusal.inDoubt_eq).symm⟩
          | repeated _ hretry _ => exact absurd hretry hrefusal.not_mayRetry
      | handed hfits hshows =>
          rw [hshows.attemptsIn_append, hshows.callsIn_eq]
          generalize houtcome : Exchange.outcome _ client command = outcome at hfollowed
          cases hfollowed with
          | succeeded =>
              refine ⟨rfl, _, _, .final hfits fun hrepeatable => ?_, ?_⟩
              · exact absurd hrepeatable (not_repeatable houtcome)
              · rw [houtcome]
                rfl
          | failed hsilent hwhy =>
              rw [attemptsIn_of_local hsilent, callsIn_of_local hsilent]
              refine ⟨rfl, _, _, .final hfits fun hrepeatable => ?_, ?_⟩
              · rcases hwhy with hnone | ⟨now, rfl, hretry⟩
                · exact hnone
                · rw [repeatable_iff houtcome rfl, hretry] at hrepeatable
                  cases hrepeatable
              · rw [houtcome]
                exact (report_final houtcome).symm
          | @repeated retries _ now pause rest _ hpause hretry hrest =>
              rw [List.cons_subset, List.append_subset] at hwhole
              obtain ⟨hcalls, outcome, last, hcourse, rfl⟩ :=
                ih retries (Nat.lt_succ_self retries) hwhole.2.2.2 hrest
              have hattempts : attemptsIn (⟨.clock, now⟩ :: (pause ++ rest)) = attemptsIn rest :=
                attemptsIn_append hpause rest
              have hlater : callsIn (⟨.clock, now⟩ :: (pause ++ rest)) = callsIn rest := by
                show callsIn (pause ++ rest) = _
                rw [callsIn_append, callsIn_of_local hpause, List.nil_append]
              rw [hattempts, hlater, hcalls]
              refine ⟨rfl, outcome, last, .again hfits ?_ hcourse, (report_again houtcome).symm⟩
              exact (repeatable_iff houtcome rfl).mpr hretry

/-! ### What a run of attempts shows -/

namespace Course

variable {cancelled : Prop} {tried : List Attempt} {outcome : Except Fault Command.Output} {last : Nat}

theorem request_eq
    (h : Course cancelled client command payload id total retries iteration tried outcome last) :
    ∀ index attempt, tried[index]? = some attempt → attempt.call.request =
      envelope id (iteration + index).toUInt32 payload command.policy command.isWrite := by
  induction h with
  | refused => simp
  | final hfits =>
      rintro (_ | index) attempt hattempt
      · obtain rfl := Option.some.inj hattempt
        exact hfits.request_eq
      · cases hattempt
  | again hfits _ _ ih =>
      rintro (_ | index) attempt hattempt
      · obtain rfl := Option.some.inj hattempt
        exact hfits.request_eq
      · rw [ih index attempt hattempt, Nat.add_right_comm]
        rfl

theorem length_le
    (h : Course cancelled client command payload id total retries iteration tried outcome last) :
    tried.length ≤ retries + 1 := by
  induction h with
  | refused => simp
  | final => simp
  | again _ _ _ ih => simpa using ih

theorem limits_eq
    (h : Course cancelled client command payload id total retries iteration tried outcome last) :
    ∀ attempt ∈ tried, ∃ began, attempt.limits =
      { deadline := command.policy.attemptDeadline began total
        scope := client.scope
        isWrite := command.isWrite } := by
  induction h with
  | refused => simp
  | final hfits =>
      rw [List.forall_mem_singleton]
      exact hfits.limits_eq
  | again hfits _ _ ih =>
      rw [List.forall_mem_cons]
      exact ⟨hfits.limits_eq, ih⟩

/-- An attempt that another one follows may be repeated. -/
theorem repeatable_of_followed
    (h : Course cancelled client command payload id total retries iteration tried outcome last) :
    ∀ index attempt, tried[index]? = some attempt → index + 1 < tried.length →
      index < retries ∧ attempt.Repeatable client command total := by
  induction h with
  | refused => simp
  | final =>
      intro index attempt _ hindex
      simp at hindex
  | again _ hrepeatable _ ih =>
      rintro (_ | index) attempt hattempt hindex
      · obtain rfl := Option.some.inj hattempt
        exact ⟨Nat.succ_pos _, hrepeatable⟩
      · obtain ⟨hretries, hlater⟩ := ih index attempt hattempt (Nat.lt_of_succ_lt_succ hindex)
        exact ⟨Nat.succ_lt_succ hretries, hlater⟩

/-- A run ends with an attempt that may not be repeated, or for which no retries are left, unless after
attempts that may be the client hands nothing over in the end. -/
theorem ending
    (h : Course cancelled client command payload id total retries iteration tried outcome last) :
    (∃ fault, Refusal client cancelled fault ∧ outcome = .error fault ∧
      ∀ attempt ∈ tried, attempt.Repeatable client command total) ∨
    ∃ attempt, tried.getLast? = some attempt ∧ outcome = attempt.outcome client command ∧
      last + 1 = iteration + tried.length ∧
      (attempt.Repeatable client command total → retries < tried.length) := by
  induction h with
  | refused hrefusal => exact .inl ⟨_, hrefusal, rfl, by simp⟩
  | final _ hfinal => exact .inr ⟨_, rfl, rfl, rfl, fun hrepeatable => by simp [hfinal hrepeatable]⟩
  | @again retries iteration last attempt rest outcome _ hrepeatable _ ih =>
      rw [List.length_cons, ← Nat.add_assoc, Nat.add_right_comm, List.forall_mem_cons]
      rcases ih with ⟨fault, hrefusal, houtcome, hall⟩ | ⟨final, hfinal, houtcome, hlast, hretries⟩
      · exact .inl ⟨fault, hrefusal, houtcome, hrepeatable, hall⟩
      · refine .inr ⟨final, ?_, houtcome, hlast, fun hrepeatable => ?_⟩
        · rw [List.getLast?_cons, hfinal]
          rfl
        · exact Nat.succ_lt_succ (hretries hrepeatable)

end Course

/-- A command that can be encoded notes when it begins, draws a number, and makes its attempts. -/
theorem execute_cases {result : Except Fault Command.Output}
    (h : (client.execute command).run.Ends history result) :
    (∃ fault, client.framer.command command = .error fault ∧ history = [] ∧
      result = .error fault) ∨
    ∃ payload start id later, client.framer.command command = .ok payload ∧
      history = ⟨.clock, start⟩ :: ⟨.drawId, id⟩ :: later ∧
      (client.attempts command payload id (command.policy.deadline start) command.policy.maxRetries 1
        false).Ends later result := by
  unfold execute at h
  rcases ends_run_bind_iff.mp h with
    ⟨fault, hframer, rfl⟩ | ⟨front, rest, payload, rfl, hframer, hrest⟩
  · obtain ⟨rfl, hfault⟩ := ends_run_lift_iff.mp hframer
    exact .inl ⟨fault, hfault.symm, rfl, rfl⟩
  obtain ⟨rfl, hpayload⟩ := ends_run_lift_iff.mp hframer
  obtain ⟨start, begun, rfl, hbegun⟩ := ends_run_query_bind_iff.mp hrest
  obtain ⟨id, later, rfl, hlater⟩ := ends_run_query_bind_iff.mp hbegun
  exact .inr ⟨payload, start, id, later, hpayload.symm, rfl, hlater⟩

/-- What a command comes to: the encoder refuses it, or one request after the other is handed over
under one number and within one limit of time. -/
theorem execute_course {result : Except Fault Command.Output}
    (h : (client.execute command).run.Ends history result) :
    (∃ fault, client.framer.command command = .error fault ∧ history = [] ∧
      result = .error fault) ∨
    ∃ payload start id later, client.framer.command command = .ok payload ∧
      history = ⟨.clock, start⟩ :: ⟨.drawId, id⟩ :: later ∧
      callsIn history = (attemptsIn history).map (·.call) ∧ ∃ outcome last,
        Course ((⟨.isCancelled client.scope, true⟩ : Event) ∈ history) client command payload id
          (command.policy.deadline start) command.policy.maxRetries 1 (attemptsIn history) outcome
          last ∧
        result = report client command false (attemptsIn history) outcome last := by
  rcases execute_cases h with hrefused | ⟨payload, start, id, later, hpayload, rfl, hlater⟩
  · exact .inl hrefused
  have hwhole : later ⊆ ⟨.clock, start⟩ :: ⟨.drawId, id⟩ :: later := by
    intro event hmem
    exact List.mem_cons_of_mem _ (List.mem_cons_of_mem _ hmem)
  obtain ⟨hcalls, hcourse⟩ := attempts_course hwhole hlater
  exact .inr ⟨payload, start, id, later, hpayload, rfl, hcalls, hcourse⟩

end Client
end RecordGateway
