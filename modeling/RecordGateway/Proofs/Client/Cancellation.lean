import RecordGateway.Proofs.Client.Traces
import RecordGateway.Proofs.RecordSet.Course
import RecordGateway.Proofs.Session.Conduct

/-!
Cancellation is final. Directly before a client hands a request over it looks whether the call is cancelled,
and all that it waits for besides pauses it waits for under the scope of the call (`Guarded`). This is a mark
that all calls leave on their histories (`marks_guarded`), and what follows from it for a flow that goes on
while anything may happen beside it is shown by one induction (`final_of_goes`): under a cancelled scope
nothing is handed over and nothing arrives. A call that succeeds has an arrival as its last moment
(`concludes_execute`, `concluded_batch`), so it was not cancelled before; and when a record set finishes, all
that came had come before its cancellation (`vouched_of_finished`).
-/

namespace RecordGateway

open RecordGateway.Flow

/-! ### Guarded histories -/

namespace Event

/-- Whether the event is the end of a pause, which no cancellation cuts short. -/
def EndsPause : Event → Prop
  | ⟨.wait _ limits, _⟩ => limits = {}
  | _ => False

/-- Whether the event shows that the scope is not cancelled: it was looked at, or something came that was
waited for under it. -/
def ShowsOpen (scope : Scope) : Event → Prop
  | ⟨.isCancelled checked, cancelled⟩ => checked = scope ∧ cancelled = false
  | ⟨.wait _ limits, waited⟩ => limits.scope = scope ∧ waited = .arrived
  | _ => False

/-- Whether a wait is a pause or one under the scope. -/
def KeepsTo (scope : Scope) : Event → Prop
  | ⟨.wait _ limits, _⟩ => limits.scope = scope ∨ limits = {}
  | _ => True

end Event

/-- Requests are handed over only directly after it was found that the scope is not cancelled, and waits are
under the scope. At the beginning a request may stand only if it is allowed. -/
def Guarded (scope : Scope) : Prop → History → Prop
  | _, [] => True
  | allowed, event :: later =>
    (event.question.IsRequest → allowed) ∧ event.KeepsTo scope ∧
      Guarded scope (event = ⟨.isCancelled scope, false⟩) later

/-- Whether a question waits under the scope only, and puts nothing on a queue but a row. -/
def Ask.StaysUnder (scope : Scope) : Ask → Prop
  | .wait _ limits => limits.scope = scope
  | .offer _ (.row ..) => True
  | .offer .. => False
  | _ => True

variable {scope : Scope} {allowed : Prop} {front back history : History}

theorem Ask.StaysUnder.offersRows {question : Ask} (h : question.StaysUnder scope) :
    question.OffersRows := by
  cases question with
  | offer number item =>
      cases item with
      | row key record => trivial
      | _ => exact h.elim
  | _ => trivial

theorem Guarded.mono (h : Guarded scope False history) : Guarded scope allowed history := by
  cases history with
  | nil => trivial
  | cons event later => exact ⟨fun hrequest => (h.1 hrequest).elim, h.2⟩

theorem Guarded.append (hfront : Guarded scope allowed front) (hback : Guarded scope False back) :
    Guarded scope allowed (front ++ back) := by
  induction front generalizing allowed with
  | nil => exact hback.mono
  | cons event front ih => exact ⟨hfront.1, hfront.2.1, ih hfront.2.2⟩

theorem lasting_guarded (scope : Scope) : Lasting fun _ => Guarded scope False :=
  ⟨fun _ => trivial, Guarded.append⟩

theorem guarded_single {event : Event} (hrequest : ¬ event.question.IsRequest)
    (hkeeps : event.KeepsTo scope) : Guarded scope allowed [event] :=
  ⟨fun h => (hrequest h).elim, hkeeps, trivial⟩

/-! ### Going on under cancellation -/

/-- From a moment on at which the scope is cancelled, no request is handed over, and no reply and no frame
comes: what is waited for comes only at the end of a pause. -/
def Final (scope : Scope) (log : List Session.Moment) : Prop :=
  ∀ earlier first later, log = earlier ++ first :: later → first.session.scopeCancelled scope = true →
    ∀ moment ∈ first :: later, ¬ moment.event.question.IsRequest ∧
      (moment.event.isArrival = true → moment.event.EndsPause)

/-- No moment is under cancellation. -/
def Untouched (scope : Scope) (log : List Session.Moment) : Prop :=
  ∀ moment ∈ log, moment.session.scopeCancelled scope = false

/-- Nothing comes under cancellation, and no pause ends. -/
def Timely (scope : Scope) (log : List Session.Moment) : Prop :=
  ∀ moment ∈ log, moment.event.isArrival = true → moment.session.scopeCancelled scope = false

variable {α : Type} {flow rest : Flow α} {session final : Session} {log : List Session.Moment}

theorem Session.uncancelled_of_isCancelled {seen : Option Nat} {checked : Scope} {after : Session}
    (h : session.poll seen (.isCancelled checked) = .answered false after) :
    after.scopeCancelled checked = false := by
  obtain ⟨hcancelled, rfl⟩ := Session.Polled.answered.inj h
  exact hcancelled

theorem Session.Moment.Fits.uncancelled {moment : Session.Moment} (hfits : moment.Fits)
    (hshows : moment.event.ShowsOpen scope) : moment.session.scopeCancelled scope = false := by
  obtain ⟨reached, question, answer⟩ := moment
  obtain ⟨seen, after, hpoll⟩ := hfits
  cases question with
  | isCancelled checked =>
      obtain ⟨rfl, rfl⟩ := hshows
      exact (Session.Polled.answered.inj hpoll).1
  | wait due limits =>
      obtain ⟨rfl, rfl⟩ := hshows
      exact Session.uncancelled_of_arrived hpoll
  | _ => exact hshows.elim

/-- Between looking at the scope and handing a request over there is nothing. The induction is on the moments
of the flow, and a request that may come next finds the scope open. -/
theorem kept_of_goes (h : Session.Goes flow session log rest final)
    (hguarded : Guarded scope allowed (Session.history log ++ back))
    (hopen : allowed → flow.AsksRequest → session.scopeCancelled scope = false) :
    ∀ moment ∈ log, moment.session.scopeCancelled scope = true →
      ¬ moment.event.question.IsRequest ∧
        (moment.event.isArrival = true → moment.event.EndsPause) := by
  induction h generalizing allowed with
  | stays => exact List.forall_mem_nil _
  | pass hrequest _ _ ih => exact ih hguarded fun _ hasks => (hrequest hasks).elim
  | @answer question next seen answer session after final log rest hpoll _ ih =>
      obtain ⟨hrequest, hkeeps, hlater⟩ := hguarded
      refine List.forall_mem_cons.mpr ⟨fun hcancelled => ⟨fun hasks => ?_, fun harrival => ?_⟩, ?_⟩
      · rw [hopen (hrequest hasks) hasks] at hcancelled
        cases hcancelled
      · cases question with
        | wait due limits =>
            obtain rfl : answer = Waited.arrived := eq_of_beq harrival
            refine hkeeps.resolve_left ?_
            rintro rfl
            rw [Session.uncancelled_of_arrived hpoll] at hcancelled
            cases hcancelled
        | _ => cases harrival
      · refine ih hlater fun hchecked _ => ?_
        obtain ⟨rfl, hanswer⟩ := Event.mk.inj hchecked
        obtain rfl := eq_of_heq hanswer
        exact Session.uncancelled_of_isCancelled hpoll

theorem final_of_goes (h : Session.Goes flow session log rest final)
    (hguarded : flow.Always (Guarded scope False)) : Final scope log := by
  rintro earlier first later rfl hcancelled
  obtain ⟨back, value, hends⟩ := h.ends
  have hkept := kept_of_goes h (hguarded _ _ hends) False.elim
  have hafter := (List.pairwise_cons.mp (List.pairwise_append.mp h.pairwise).2.1).1
  have hstill : ∀ moment ∈ first :: later, moment.session.scopeCancelled scope = true :=
    List.forall_mem_cons.mpr
      ⟨hcancelled, fun moment hmem => (hafter moment hmem).cancelled_of scope hcancelled⟩
  exact fun moment hmem => hkept moment (List.mem_append_right earlier hmem) (hstill moment hmem)

/-- The last thing that happens is that something comes that was waited for under the scope. -/
def Concluded (scope : Scope) (history : History) : Prop :=
  ∃ front due limits, history = front ++ [⟨.wait due limits, Waited.arrived⟩] ∧ limits.scope = scope

theorem Concluded.append_left (h : Concluded scope back) (front : History) :
    Concluded scope (front ++ back) := by
  obtain ⟨earlier, due, limits, rfl, hlimits⟩ := h
  exact ⟨front ++ earlier, due, limits, by rw [List.append_assoc], hlimits⟩

/-- What was waited for cannot come under cancellation, and all else was before. -/
theorem untouched_of_concluded (h : Session.Goes flow session log rest final)
    (hconcluded : Concluded scope (Session.history log)) : Untouched scope log := by
  obtain ⟨front, due, limits, hlog, rfl⟩ := hconcluded
  obtain ⟨earlier, lasts, rfl, -, hlast⟩ := List.map_eq_append_iff.mp hlog
  obtain ⟨⟨reached, _⟩, rfl, rfl⟩ := List.map_eq_singleton_iff.mp hlast
  have hfits := h.fits _ (List.mem_append_right earlier List.mem_cons_self)
  exact h.uncancelled (hfits.uncancelled ⟨rfl, rfl⟩)

/-- For whatever comes, it or something later shows that the scope is still open. -/
def Vouched (scope : Scope) : History → Prop
  | [] => True
  | event :: later =>
    (event.isArrival = true → ∃ shows ∈ event :: later, shows.ShowsOpen scope) ∧ Vouched scope later

theorem Vouched.append (hfront : Vouched scope front) (hback : Vouched scope back) :
    Vouched scope (front ++ back) := by
  induction front with
  | nil => exact hback
  | cons event front ih =>
      refine ⟨fun harrival => ?_, ih hfront.2⟩
      obtain ⟨shows, hmem, hshows⟩ := hfront.1 harrival
      exact ⟨shows, List.mem_append_left back hmem, hshows⟩

/-- What shows the scope to be open vouches for all that was before. -/
theorem Vouched.after (hback : Vouched scope back) (hshown : ∃ shows ∈ back, shows.ShowsOpen scope)
    (front : History) : Vouched scope (front ++ back) := by
  induction front with
  | nil => exact hback
  | cons event front ih =>
      obtain ⟨shows, hmem, hshows⟩ := hshown
      exact ⟨fun _ => ⟨shows, List.mem_append_right (event :: front) hmem, hshows⟩, ih⟩

theorem vouched_of_stays (h : ∀ event ∈ history, event.question.StaysUnder scope) :
    Vouched scope history := by
  induction history with
  | nil => trivial
  | cons event later ih =>
      obtain ⟨hevent, hlater⟩ := List.forall_mem_cons.mp h
      refine ⟨fun harrival => ⟨event, List.mem_cons_self, ?_⟩, ih hlater⟩
      obtain ⟨question, answer⟩ := event
      cases question with
      | wait due limits => exact ⟨hevent, eq_of_beq harrival⟩
      | _ => cases harrival

/-- What is shown to be open at one moment was open at all earlier ones. -/
theorem timely_of_vouched (h : Session.Goes flow session log rest final)
    (hvouched : Vouched scope (Session.history log)) : Timely scope log := by
  have hfits := h.fits
  have hpairwise := h.pairwise
  clear h
  induction log with
  | nil => exact List.forall_mem_nil _
  | cons moment log ih =>
      obtain ⟨hfits, hlater⟩ := List.forall_mem_cons.mp hfits
      obtain ⟨hbefore, hpairwise⟩ := List.pairwise_cons.mp hpairwise
      refine List.forall_mem_cons.mpr ⟨fun harrival => ?_, ih hvouched.2 hlater hpairwise⟩
      obtain ⟨shows, hmem, hshows⟩ := hvouched.1 harrival
      rcases List.mem_cons.mp hmem with rfl | hmem
      · exact hfits.uncancelled hshows
      · obtain ⟨shown, hshown, rfl⟩ := List.mem_map.mp hmem
        exact (hbefore shown hshown).uncancelled ((hlater shown hshown).uncancelled hshows)

namespace Client

variable {client : Client} {method : Method} {request : Envelope.Request} {limits : Limits}

/-! ### The guard of all calls -/

theorem leaves_prepare {mark : History → Prop} (h : Lasting fun _ => mark)
    (hclock : ∀ now, mark [⟨.clock, now⟩])
    (hcredential : ∀ answer, mark [⟨.credential limits, answer⟩]) :
    Leaves (fun _ => mark) (client.prepare method request limits) := by
  have hproof : Leaves (fun _ => mark) (client.authorization limits) := by
    unfold authorization
    split
    · exact h.leaves_pure _
    · refine h.leaves_query_bind hcredential fun answer => ?_
      cases answer with
      | token text =>
          dsimp only
          split
          · exact h.leaves_throw _
          · exact h.leaves_pure _
      | _ => exact h.leaves_throw _
  unfold prepare
  refine h.leaves_query_bind hclock fun now => ?_
  dsimp only
  split
  · exact h.leaves_throw _
  · exact h.leaves_bind hproof fun proof => h.leaves_pure _

theorem guarded_of_isRenewal (h : IsRenewal history) : Guarded scope allowed history := by
  induction history generalizing allowed with
  | nil => trivial
  | cons event later ih =>
      obtain ⟨hevent, hlater⟩ := List.forall_mem_cons.mp h
      obtain ⟨question, answer⟩ := event
      obtain rfl : question = .renewCredential := hevent
      exact ⟨False.elim, trivial, ih hlater⟩

/-- A client looks at the scope, hands the request over at once, and waits under the scope. -/
theorem guarded_exchange {hand : Flow (Delayed (Except Status α))} {outcome : Except Fault α}
    (hhands : ∀ handing reply, hand.Ends handing reply →
      ∃ handed : Event, handing = [handed] ∧ handed.question.IsRequest)
    (h : (client.exchange limits hand).run.Ends history outcome) :
    Guarded limits.scope False history ∧
      (∀ value, outcome = .ok value → Concluded limits.scope history) := by
  cases exchange_cases h with
  | refused => exact ⟨guarded_single id trivial, nofun⟩
  | @waited _ rest reply now waited _ hhand hsettled =>
      obtain ⟨handed, rfl, hrequest⟩ := hhands _ _ hhand
      have hkeeps : handed.KeepsTo limits.scope := by
        obtain ⟨question, answer⟩ := handed
        cases question <;> trivial
      refine ⟨⟨False.elim, trivial, fun _ => rfl, hkeeps, False.elim, trivial, False.elim, .inl rfl,
        guarded_of_isRenewal hsettled.isRenewal⟩, fun value hvalue => ?_⟩
      cases hsettled with
      | arrived => exact ⟨[_, handed, _], _, limits, rfl, rfl⟩
      | _ => cases hvalue

/-- A call with one answer: ready, it is guarded, and a success comes with the answer. -/
theorem guarded_call {f : Call → Making α} {outcome : Except Fault α}
    (hexchange : ∀ call history outcome, (f call).run.Ends history outcome →
      Guarded limits.scope False history ∧
        (∀ value, outcome = .ok value → Concluded limits.scope history))
    (h : (client.prepare method request limits >>= f).run.Ends history outcome) :
    Guarded limits.scope False history ∧
      (∀ value, outcome = .ok value → Concluded limits.scope history) := by
  have hprepare : Leaves (fun _ => Guarded limits.scope False) (client.prepare method request limits) :=
    leaves_prepare (lasting_guarded _) (fun _ => guarded_single id trivial)
      fun _ => guarded_single id trivial
  rcases ends_run_bind_iff.mp h with ⟨fault, hfault, rfl⟩ | ⟨front, back, call, rfl, hfront, hback⟩
  · exact ⟨hprepare _ _ hfault, nofun⟩
  · obtain ⟨hguarded, hconcluded⟩ := hexchange call _ _ hback
    exact ⟨Guarded.append (hprepare _ _ hfront) hguarded,
      fun value hvalue => (hconcluded value hvalue).append_left front⟩

theorem guarded_unary {outcome : Except Fault Envelope.Response}
    (h : (client.unary method request limits).run.Ends history outcome) :
    Guarded limits.scope False history ∧
      (∀ response, outcome = .ok response → Concluded limits.scope history) := by
  refine guarded_call (fun call _ _ => guarded_exchange fun handing reply hhand => ?_) h
  obtain rfl := ends_query_iff.mp hhand
  exact ⟨_, rfl, trivial⟩

theorem guarded_stream {outcome : Except Fault FrameStream}
    (h : (client.stream method request limits).run.Ends history outcome) :
    Guarded limits.scope False history ∧
      (∀ stream, outcome = .ok stream → Concluded limits.scope history) := by
  refine guarded_call (fun call _ _ => guarded_exchange fun handing reply hhand => ?_) h
  obtain rfl := ends_query_iff.mp hhand
  exact ⟨_, rfl, trivial⟩

theorem marks_guarded (client : Client) (scope : Scope) : client.Marks scope (Guarded scope False) where
  toLasting := lasting_guarded scope
  plain := by
    rintro ⟨question, answer⟩ hplain
    cases question <;> first | exact guarded_single id trivial | exact hplain.elim
  pause := fun _ _ _ => ⟨False.elim, trivial, False.elim, .inr rfl, trivial⟩
  frame := fun _ hlimits _ _ => guarded_single id (.inl hlimits)
  unary := by
    rintro method request limits rfl history outcome h
    exact (guarded_unary h).1
  stream := by
    rintro method request limits rfl history outcome h
    exact (guarded_stream h).1

/-! ### Successes -/

/-- A success comes with an arrival. -/
def Concludes (scope : Scope) (making : Making α) : Prop :=
  ∀ history value, making.run.Ends history (.ok value) → Concluded scope history

theorem concludes_ask_bind {question : Ask} {f : question.Answer → Making α}
    (hf : ∀ answer, Concludes scope (f answer)) : Concludes scope (ask question >>= f) := by
  intro history value h
  obtain ⟨answer, rest, rfl, hrest⟩ := ends_run_query_bind_iff.mp h
  exact (hf answer _ _ hrest).append_left [_]

theorem concludes_lift_bind {β : Type} {checked : Except Fault α} {f : α → Making β}
    (hf : ∀ value, Concludes scope (f value)) : Concludes scope (liftM checked >>= f) := by
  intro history value h
  rcases ends_run_bind_iff.mp h with ⟨_, _, hfault⟩ | ⟨front, back, given, rfl, -, hback⟩
  · cases hfault
  · exact (hf given _ _ hback).append_left front

/-- What is made of an answer asks nothing more. -/
theorem Concludes.bind {β : Type} {making : Making α} {f : α → Making β}
    (hmaking : Concludes scope making)
    (hf : ∀ value history result, (f value).run.Ends history result → history = []) :
    Concludes scope (making >>= f) := by
  intro history value h
  rcases ends_run_bind_iff.mp h with ⟨_, _, hfault⟩ | ⟨front, back, given, rfl, hfront, hback⟩
  · cases hfault
  · obtain rfl := hf given _ _ hback
    rw [List.append_nil]
    exact hmaking _ _ hfront

theorem concludes_attempt (command : Command) (payload : Bytes) (id : UInt32) (iteration : Nat)
    (total : Option Time) :
    Concludes client.scope (client.attempt command payload id iteration total) := by
  refine concludes_ask_bind fun now => Concludes.bind ?_ fun response history result h => ?_
  · exact fun history response h => (guarded_unary h).2 response rfl
  · exact (ends_run_lift_iff.mp h).1

/-- A success is that of the last attempt. The induction is on the retries that are left. -/
theorem concludes_attempts (command : Command) (payload : Bytes) (id : UInt32) (total : Option Time)
    (retries iteration : Nat) (doubt : Bool) :
    Concludes client.scope
      (ExceptT.mk (client.attempts command payload id total retries iteration doubt)) := by
  induction retries using Nat.strongRecOn generalizing iteration doubt with
  | ind retries ih =>
      intro history value h
      obtain ⟨front, back, outcome, rfl, hattempt, hfollowed⟩ := attempts_cases h
      cases hfollowed with
      | succeeded =>
          rw [List.append_nil]
          exact concludes_attempt _ _ _ _ _ _ _ hattempt
      | @repeated fewer _ _ pause rest _ _ _ hrest =>
          refine Concluded.append_left ?_ front
          exact (ih fewer (Nat.lt_succ_self fewer) _ _ _ _ hrest).append_left (_ :: pause)

theorem concludes_execute (command : Command) : Concludes client.scope (client.execute command) :=
  concludes_lift_bind fun _ => concludes_ask_bind fun _ => concludes_ask_bind fun _ =>
    concludes_attempts _ _ _ _ _ _ _

theorem concludes_openBatch (policy : Policy) (slots : List Batch.Slot) :
    Concludes client.scope (client.openBatch policy slots) := by
  refine concludes_lift_bind fun payload => concludes_ask_bind fun now => concludes_ask_bind fun id => ?_
  refine Concludes.bind ?_ fun stream history result h => (ends_pure_iff.mp h).1
  exact fun history stream h => (guarded_stream h).2 stream rfl

/-- What is read of an answer without a failure is read after the last frame that was waited for has come. -/
theorem watches_concluded {limits : Limits} (hlimits : limits.scope = scope) :
    FrameReader.Watches limits fun succeeded history =>
      succeeded = true → history = [] ∨ Concluded scope history where
  nil := fun _ _ => .inl rfl
  append := by
    intro succeeded front back hfront hback hsucceeded
    rcases hback hsucceeded with rfl | hback
    · rw [List.append_nil]
      exact hfront rfl
    · exact .inr (hback.append_left front)
  awaited := by
    intro succeeded front due waited _ harrived hsucceeded
    obtain rfl := harrived hsucceeded
    exact .inr ⟨front, due, limits, rfl, hlimits⟩

/-- A batch that asks for something is a success only once the last frame has come. -/
theorem concluded_batch {policy : Policy} {slots result : List Batch.Slot} {verdict : Bool}
    (h : (client.batch policy slots).Ends history (.ok verdict, result)) :
    history = [] ∨ Concluded client.scope history := by
  unfold batch at h
  dsimp only at h
  split at h
  · exact .inl (ends_pure_iff.mp h).1
  obtain ⟨exchanging, last, ⟨given, tally⟩, rfl, hexchange, hlast⟩ := ends_bind_iff.mp h
  cases given with
  | error fault => cases (Prod.mk.inj (ends_pure_iff.mp hlast).2).1
  | ok _ =>
      obtain ⟨rfl, -⟩ := ends_pure_iff.mp hlast
      obtain ⟨opening, back, opened, rfl, hopen, hback⟩ := ends_bind_iff.mp hexchange
      cases opened with
      | error refused => cases (Prod.mk.inj (ends_pure_iff.mp hback).2).1
      | ok reader =>
          obtain ⟨reading, silent, ⟨read, state⟩, rfl, hreading, hsilent⟩ := ends_bind_iff.mp hback
          obtain ⟨rfl, hpair⟩ := ends_pure_iff.mp hsilent
          obtain ⟨rfl, -⟩ := Prod.mk.inj hpair
          have hwatches := watches_concluded (scope_openBatch hopen)
          rw [List.append_nil, List.append_nil]
          rcases (hwatches.traces_reassembly _ ⟨reader, { slots := _ }⟩ _ _ _ rfl hreading).2 rfl with
            rfl | hread
          · rw [List.append_nil]
            exact .inr (concludes_openBatch policy _ _ _ hopen)
          · exact .inr (hread.append_left opening)

/-! ### Record sets that finish -/

/-- Opening a stream waits under the scope of the call. -/
theorem stream_stays : (client.stream method request limits).run.Asks (Ask.StaysUnder limits.scope) := by
  intro history outcome h
  have hlasting := lasting_forall (Ask.StaysUnder limits.scope)
  have hready : Leaves (fun _ history => ∀ event ∈ history, event.question.StaysUnder limits.scope)
      (client.prepare method request limits) :=
    leaves_prepare hlasting (fun _ => List.forall_mem_singleton.mpr trivial)
      fun _ => List.forall_mem_singleton.mpr trivial
  have hexchange : ∀ call, Leaves
      (fun _ history => ∀ event ∈ history, event.question.StaysUnder limits.scope)
      (client.exchange limits (Flow.query (.openStream call))) := by
    intro call history outcome hends
    cases exchange_cases hends with
    | refused => exact List.forall_mem_singleton.mpr trivial
    | @waited _ rest _ _ _ _ hhand hsettled =>
        obtain rfl := ends_query_iff.mp hhand
        simp only [List.forall_mem_cons, List.singleton_append]
        refine ⟨trivial, trivial, trivial, rfl, fun event hmem => ?_⟩
        rw [hsettled.isRenewal event hmem]
        trivial
  exact hlasting.leaves_bind hready hexchange history outcome h

variable {producer : RecordSet.Producer} {round : RecordSet.Played} {rounds : List RecordSet.Played}
  {retries : Nat} {tracker : Partition.Tracker} {item : Option RecordSet.Item}
  {filter : Partition.Filter}

section Rounds

variable (hopen : ∀ filter iteration,
  (producer.openRound filter iteration).Asks (Ask.StaysUnder (.recordSet producer.set)))
include hopen

/-- A round waits under the scope of its set, and puts nothing on the queue but rows. -/
theorem plays_stays (h : RecordSet.Plays producer history round) :
    ∀ event ∈ history, event.question.StaysUnder (.recordSet producer.set) := by
  cases h with
  | refused hrefused => exact hopen _ _ _ _ hrefused
  | answered hopened hrun =>
      have hwatches : FrameReader.Watches producer.limits fun _ history =>
          ∀ event ∈ history, event.question.StaysUnder (.recordSet producer.set) :=
        FrameReader.watches_forall trivial fun _ => rfl
      have hreading := (hwatches.traces_round (fun _ _ _ => List.forall_mem_singleton.mpr trivial)
        _ _ _ _ rfl hrun).2
      exact List.forall_mem_append.mpr ⟨hopen _ _ _ _ hopened, hreading⟩

/-- Until a set ends, nothing is put on its queue but rows. -/
theorem course_offersRows (h : RecordSet.Course producer retries tracker history rounds item) :
    ∀ event ∈ history, event.question.OffersRows := by
  have hplayed : ∀ {front round}, RecordSet.Plays producer front round →
      ∀ event ∈ front, event.question.OffersRows :=
    fun hplays event hmem => (plays_stays hopen hplays event hmem).offersRows
  induction h with
  | cancelled => exact List.forall_mem_singleton.mpr trivial
  | last hplays => exact List.forall_mem_cons.mpr ⟨trivial, hplayed hplays⟩
  | exhausted hplays => exact List.forall_mem_cons.mpr ⟨trivial, hplayed hplays⟩
  | again hplays _ hpause _ ih =>
      refine List.forall_mem_cons.mpr ⟨trivial, List.forall_mem_append.mpr ⟨hplayed hplays, ?_⟩⟩
      refine List.forall_mem_append.mpr ⟨fun event hmem => ?_, ih⟩
      exact (hpause event hmem).keepsQueues.offersRows

/-- A set that finishes does so in a round, and before each round it was found that the set is not
cancelled. -/
theorem course_vouched (h : RecordSet.Course producer retries tracker history rounds item)
    (hitem : item = some (.finished filter)) :
    Vouched (.recordSet producer.set) history ∧
      ∃ shows ∈ history, shows.ShowsOpen (.recordSet producer.set) := by
  induction h with
  | cancelled => cases hitem
  | last hplays =>
      exact ⟨⟨nofun, vouched_of_stays (plays_stays hopen hplays)⟩, _, List.mem_cons_self, rfl, rfl⟩
  | exhausted => cases hitem
  | @again _ front pause back _ _ _ _ _ _ _ _ ih =>
      obtain ⟨hback, hshown⟩ := ih hitem
      rw [← List.append_assoc]
      exact ⟨⟨nofun, hback.after hshown (front ++ pause)⟩, _, List.mem_cons_self, rfl, rfl⟩

theorem vouched_of_finished {isRead : Bool} (h : (producer.run tracker).Ends history ())
    (hfinished : (⟨.offer producer.set (.finished filter), isRead⟩ : Event) ∈ history) :
    Vouched (.recordSet producer.set) history := by
  obtain ⟨front, back, item, rfl, hrounds, hback⟩ := ends_bind_iff.mp h
  obtain ⟨rounds, hcourse⟩ := RecordSet.rounds_course _ _ _ _ hrounds
  have hlast := (List.mem_append.mp hfinished).resolve_left fun hmem =>
    course_offersRows hopen hcourse _ hmem
  cases item with
  | none =>
      obtain ⟨rfl, -⟩ := ends_pure_iff.mp hback
      cases hlast
  | some last =>
      obtain ⟨offering, silent, given, rfl, hoffer, hsilent⟩ := ends_bind_iff.mp hback
      obtain rfl := ends_query_iff.mp hoffer
      obtain ⟨rfl, -⟩ := ends_pure_iff.mp hsilent
      obtain ⟨hquestion, -⟩ := Event.mk.inj (List.mem_singleton.mp hlast)
      obtain ⟨-, rfl⟩ := Ask.offer.inj hquestion
      exact (course_vouched hopen hcourse rfl).1.append ⟨nofun, trivial⟩

end Rounds

/-! ### What cancels -/

/-- Cancelling a session cancels the record sets of a client that belongs to it. -/
theorem scopeCancelled_cancel (number : Nat) (hclient : session.client.scope = .session) :
    session.cancel.scopeCancelled (.recordSet number) = true := by
  rw [Session.scopeCancelled, Session.cancel, hclient]
  rfl

/-- A change of a record set that does not undo its cancellation. -/
theorem later_updateSet {number : Nat} {change : Session.Set → Session.Set}
    (hchange : ∀ set, set.isCancelled = true → (change set).isCancelled = true) :
    session.Later (session.updateSet number change) := by
  refine ⟨Nat.le_refl _, fun scope hscope => ?_⟩
  cases scope with
  | unlimited => exact hscope
  | session => exact hscope
  | recordSet other =>
      rw [Session.scopeCancelled, Bool.or_eq_true] at hscope ⊢
      refine hscope.imp_right fun hset => ?_
      rw [Session.updateSet, Array.getElem?_modify]
      split
      · cases hother : session.sets[other]? with
        | none =>
            rw [hother] at hset
            cases hset
        | some set =>
            rw [hother] at hset
            exact hchange set hset
      · exact hset

theorem later_closeSet (session : Session) (number : Nat) :
    session.Later (session.closeSet number) :=
  later_updateSet fun _ _ => rfl

/-- Closing or dropping a record set cancels it. -/
theorem scopeCancelled_closeSet {number : Nat} (hset : number < session.sets.size) :
    (session.closeSet number).scopeCancelled (.recordSet number) = true ∧
      (session.dropSet number).scopeCancelled (.recordSet number) = true := by
  have hupdate : ∀ change : Session.Set → Session.Set, (∀ set, (change set).isCancelled = true) →
      (session.updateSet number change).scopeCancelled (.recordSet number) = true := by
    intro change hchange
    rw [Session.scopeCancelled, Session.updateSet, Array.getElem?_modify, if_pos rfl,
      Array.getElem?_eq_getElem hset]
    exact Bool.or_eq_true_iff.mpr (.inr (hchange _))
  exact ⟨hupdate _ fun _ => rfl, hupdate _ fun _ => rfl⟩

/-! ### All calls -/

/-- Once a call is cancelled, by whatever comes between any two of its moments, it hands no request over and
takes no frame and no reply any more; so if it is a success, it was not cancelled before it had all that it
waited for. This holds of a record set too, which is cancelled by closing or dropping it, and with the session
if its client belongs to the session. -/
theorem cancellation_is_final (client : Client) :
    (∀ command session log rest final,
      Session.Goes (client.execute command).run session log rest final →
      Final client.scope log ∧ ∀ output, rest = .done (.ok output) → Untouched client.scope log) ∧
    (∀ policy slots session log rest final,
      Session.Goes (client.batch policy slots) session log rest final →
      Final client.scope log ∧
        ∀ verdict result, rest = .done (.ok verdict, result) → Untouched client.scope log) ∧
    (∀ policy statement session log rest final,
      Session.Goes (client.startTask policy statement).run session log rest final →
      Final client.scope log) ∧
    (∀ task interval timeout questions session log rest final,
      Session.Goes (client.awaitTask task interval timeout questions).run session log rest final →
      Final client.scope log) ∧
    ∀ set making history begun, BeginsSet client set making → making.run.Ends history (.ok begun) →
      ∀ session log rest final,
        Session.Goes (begun.producer.run begun.tracker) session log rest final →
        Final (.recordSet set) log ∧
          (∀ filter isRead, rest = .done () →
            (⟨.offer set (.finished filter), isRead⟩ : Event) ∈ Session.history log →
            Timely (.recordSet set) log) ∧
          (session.client.scope = .session →
            session.cancel.scopeCancelled (.recordSet set) = true) ∧
          (set < session.sets.size → (session.closeSet set).scopeCancelled (.recordSet set) = true ∧
            (session.dropSet set).scopeCancelled (.recordSet set) = true) := by
  have hmarks := marks_guarded client client.scope
  refine ⟨fun command session log rest final h => ⟨?_, ?_⟩,
    fun policy slots session log rest final h => ⟨?_, ?_⟩,
    fun policy statement session log rest final h => ?_,
    fun task interval timeout questions session log rest final h => ?_,
    fun set making history begun hbegins hbegun session log rest final h => ?_⟩
  · exact final_of_goes h (hmarks.leaves_execute rfl command)
  · rintro output rfl
    exact untouched_of_concluded h (concludes_execute command _ _ h.ends_of_done)
  · exact final_of_goes h (hmarks.always_batch rfl policy slots)
  · rintro verdict result rfl
    rcases concluded_batch h.ends_of_done with hnone | hconcluded
    · obtain rfl := List.map_eq_nil_iff.mp hnone
      exact List.forall_mem_nil _
    · exact untouched_of_concluded h hconcluded
  · exact final_of_goes h (hmarks.leaves_startTask rfl policy statement)
  · exact final_of_goes h (hmarks.leaves_awaitTask rfl task interval timeout questions)
  · have hset := marks_guarded client (.recordSet set)
    refine ⟨?_, ?_, scopeCancelled_cancel set, scopeCancelled_closeSet⟩
    · refine final_of_goes h (hset.always_bind (hset.always_begun rfl hbegins hbegun _ _) fun item => ?_)
      cases item with
      | none => exact hset.always_pure _
      | some item =>
          refine hset.always_bind (always_query fun isRead => ?_) fun _ => hset.always_pure _
          exact guarded_single id trivial
    · rintro filter isRead rfl hfinished
      obtain ⟨_, ⟨-⟩⟩ := hbegins.repeats hbegun
      exact timely_of_vouched h
        (vouched_of_finished (fun _ _ => stream_stays) h.ends_of_done hfinished)

/-- A write that may be tried twice, with a pause between the attempts. -/
def patientTouch : Command where
  key := {}
  policy := { maxRetries := 1, sleepBetweenRetries := 5 }
  action := .touch

/-- A session whose gateway is not there. -/
def deserted : Session where
  client := sessionClient
  script := { responses := [⟨some 0, .error ⟨.unavailable, "", []⟩⟩] }
  refresher := none

/-- The value that a flow has come to. -/
def outcome? : Flow α → Option α
  | .done value => some value
  | .ask .. => none

theorem eq_done_of_outcome? {value : α} (h : outcome? flow = some value) : flow = .done value := by
  cases flow with
  | done given => exact congrArg Flow.done (Option.some.inj h)
  | ask question next => cases h

/-- A session with a record set whose gateway sends the first frame after a while. -/
def slow : Session where
  client := bareClient
  script := { streams := [some ⟨some 0, .ok { arrivals := [⟨some 10, .ok {}⟩] }⟩] }
  refresher := none
  sets := #[{ queue := { capacity := 1 }, activity := none }]

/-- Whether the event offers the item with which the set of the slow session finishes. -/
def finishesSlow : Event → Bool
  | ⟨.offer number (.finished _), _⟩ => number == 0
  | _ => false

/-- A write is cancelled in the pause after its first attempt, and makes no second one. A scan is closed at
the moment at which a frame has come, and does not take it; left alone, it takes the frame and finishes. -/
theorem cancelled_between :
    (∃ log rest final, Session.Goes (sessionClient.execute patientTouch).run deserted log rest final ∧
      Final .session log ∧ (callsIn (Session.history log)).length = 1 ∧
      (log.any fun moment => moment.session.scopeCancelled .session) = true ∧
      ((outcome? rest).bind faultOf?).map (·.kind) = some .cancelled) ∧
    ∃ begun : Stream,
      (∃ (log : List Session.Moment) (rest : Flow Unit) (final : Session),
        Session.Goes (begun.producer.run begun.tracker) slow log rest final ∧
        Final (.recordSet 0) log ∧ (callsIn (Session.history log)).length = 1 ∧
        (log.any fun moment => moment.session.scopeCancelled (.recordSet 0)) = true ∧
        arrivalCount (Session.history log) = 1) ∧
      ∃ (log : List Session.Moment) (final : Session),
        Session.Goes (begun.producer.run begun.tracker) slow log (.done ()) final ∧
        Timely (.recordSet 0) log ∧ arrivalCount (Session.history log) = 2 := by
  constructor
  · let paused := Session.advance (sessionClient.execute patientTouch).run none deserted
    let resumed := Session.advance paused.2.1 none (paused.2.2.cancel.moveTo 5)
    have hgoes : Session.Goes (sessionClient.execute patientTouch).run deserted
        (paused.1 ++ resumed.1) resumed.2.1 resumed.2.2 := by
      refine (Session.goes_advance _ none deserted).trans (.pass ?_ ?_ (Session.goes_advance _ none _))
      · decide +kernel
      · exact (Session.later_cancel _).trans (Session.later_moveTo (by decide +kernel))
    refine ⟨_, _, _, hgoes, ((cancellation_is_final sessionClient).1 _ _ _ _ _ hgoes).1, ?_⟩
    decide +kernel
  · obtain ⟨history, -, hends⟩ := ends_runIn late smallScan.run []
    have hruns : (match (smallScan.run.runIn late []).1 with
        | .error _ => false
        | .ok begun =>
          let waiting := Session.advance (begun.producer.run begun.tracker) none slow
          let closed := Session.advance waiting.2.1 none ((waiting.2.2.closeSet 0).moveTo 10)
          let left := Session.advance waiting.2.1 none (waiting.2.2.moveTo 10)
          let log := waiting.1 ++ closed.1
          let whole := waiting.1 ++ left.1
          (!decide waiting.2.1.AsksRequest && decide (waiting.2.2.now ≤ 10)) &&
            ((callsIn (Session.history log)).length == 1 &&
              (log.any fun moment => moment.session.scopeCancelled (.recordSet 0)) &&
              arrivalCount (Session.history log) == 1) &&
            ((outcome? left.2.1).isSome && (Session.history whole).any finishesSlow &&
              arrivalCount (Session.history whole) == 2)) = true := by
      decide +kernel
    rcases hran : (smallScan.run.runIn late []).1 with fault | begun
    · rw [hran] at hruns
      cases hruns
    rw [hran] at hruns hends
    simp only [Bool.and_eq_true, Bool.not_eq_true', decide_eq_false_iff_not, decide_eq_true_eq,
      beq_iff_eq] at hruns
    obtain ⟨⟨⟨hwaits, hnow⟩, ⟨hcalls, hcancelled⟩, hclosed⟩, hleft, hwhole⟩ := hruns
    obtain ⟨hdone, hfinishes⟩ := hleft
    have hwaiting := Session.goes_advance (begun.producer.run begun.tracker) none slow
    obtain ⟨-, -, -, -, hsets⟩ := cancellation_is_final bareClient
    have hset := hsets 0 smallScan history begun (.scan {} "" "" [] (.one 0)) hends
    refine ⟨begun, ?_, ?_⟩
    · have hgoes := hwaiting.trans (.pass hwaits
        ((later_closeSet _ 0).trans (Session.later_moveTo hnow)) (Session.goes_advance _ none _))
      exact ⟨_, _, _, hgoes, (hset _ _ _ _ hgoes).1, hcalls, hcancelled, hclosed⟩
    · have hgoes := hwaiting.trans
        (.pass hwaits (Session.later_moveTo hnow) (Session.goes_advance _ none _))
      obtain ⟨⟨⟩, houtcome⟩ := Option.isSome_iff_exists.mp hdone
      rw [eq_done_of_outcome? houtcome] at hgoes
      obtain ⟨⟨question, isRead⟩, hmem, hevent⟩ := List.any_eq_true.mp hfinishes
      unfold finishesSlow at hevent
      split at hevent
      · next number filter given heq =>
          cases heq
          obtain rfl := eq_of_beq hevent
          exact ⟨_, _, hgoes, (hset _ _ _ _ hgoes).2.1 filter _ rfl hmem, hwhole⟩
      · cases hevent

end Client
end RecordGateway
