import RecordGateway.Proofs.Client.Attempts
import RecordGateway.Proofs.Client.Batch

/-!
What a command on a single record hands over and what it leaves to its caller, for every behaviour of
the gateway and of the clock. An undisturbed command is a row of attempts that differ in their number
only (`execute_attempts`). Its doubt is that of its attempts, and giving one up adds none
(`execute_of_given_up`).
-/

namespace RecordGateway

open RecordGateway.Flow

/-- An attempt waits no longer than the whole call may take. -/
theorem Policy.attemptDeadline_le (policy : Policy) (now limit : Time) :
    ∃ deadline, policy.attemptDeadline now (some limit) = some deadline ∧ deadline ≤ limit := by
  unfold attemptDeadline
  split
  · exact ⟨limit, rfl, Nat.le_refl limit⟩
  · exact ⟨_, rfl, Nat.min_le_right _ _⟩

namespace Client

variable {client : Client} {command : Command} {payload : Bytes} {history : History}
  {result : Except Fault Command.Output}

/-- What the caller of a command is told when its attempts come to an end with one of them: of a fault
also how many there were, and for a write whether any of them has left doubt. -/
def told (client : Client) (command : Command) (tried : List Attempt) (last : Attempt) :
    Except Fault Command.Output :=
  match last.outcome client command with
  | .ok output => .ok output
  | .error fault => .error { fault with
      iteration := some tried.length
      inDoubt :=
        if command.isWrite then tried.any fun attempt => attempt.leavesDoubt client command
        else fault.inDoubt }

/-- An attempt that no other one follows is the last one. -/
theorem eq_last_of_not_followed {tried : List Attempt} {attempt last : Attempt} {index : Nat}
    (hindex : tried[index]? = some attempt) (hnone : ¬ index + 1 < tried.length)
    (hlast : tried.getLast? = some last) : attempt = last := by
  have hlt := (List.getElem?_eq_some_iff.mp hindex).1
  rw [List.getLast?_eq_getElem?, show tried.length - 1 = index by omega, hindex] at hlast
  exact Option.some.inj hlast

/-- A gateway that answers one request after the other as a script says, and none once the script is
over, in surroundings in which nothing else is waited for. Commands draw the number seven. -/
def scripted (replies : List (Delayed (Except Status Envelope.Response))) : Surroundings
  | past, .send _ => (replies[(callsIn past).length]?).getD ⟨none, .error ⟨.unavailable, "", []⟩⟩
  | _, .wait due _ => if due.isSome then Waited.arrived else Waited.timedOut
  | _, .drawId => (7 : UInt32)
  | _, question => calmAnswer question

def faultOf? {α : Type} : Except Fault α → Option Fault
  | .ok _ => none
  | .error fault => some fault

theorem eq_error_of_faultOf? {α : Type} {result : Except Fault α} {fault : Fault}
    (h : faultOf? result = some fault) : result = .error fault := by
  cases result with
  | ok value => cases h
  | error given =>
      obtain rfl := Option.some.inj h
      rfl

/-- The fault of a command is the encoder's, or that of the last attempt or of a refusal to make one; for
a write it is in doubt too if one of the attempts has left doubt. -/
theorem execute_error {fault : Fault}
    (h : (client.execute command).run.Ends history (.error fault)) :
    client.framer.command command = .error fault ∨
    ∃ own last, fault = { own with
        inDoubt := own.inDoubt ||
          (command.isWrite && (attemptsIn history).any fun attempt => attempt.leavesDoubt client command)
        iteration := some last } ∧
      ((∃ cancelled, Refusal client cancelled own) ∨
        ∃ attempt, (attemptsIn history).getLast? = some attempt ∧
          attempt.outcome client command = .error own ∧
          attempt.limits.isWrite = command.isWrite) := by
  rcases execute_course h with
    ⟨given, hgiven, -, hfault⟩ | ⟨payload, start, id, later, -, -, -, outcome, last, hcourse, hresult⟩
  · obtain rfl := Except.error.inj hfault
    exact .inl hgiven
  right
  cases outcome with
  | ok output => cases hresult
  | error own =>
      refine ⟨own, last, ?_, ?_⟩
      · simpa [report] using hresult
      rcases hcourse.ending with ⟨given, hrefusal, houtcome, -⟩ | ⟨attempt, hlast, houtcome, -, -⟩
      · obtain rfl := Except.error.inj houtcome
        exact .inl ⟨_, hrefusal⟩
      · obtain ⟨began, hlimits⟩ := hcourse.limits_eq attempt (List.mem_of_getLast? hlast)
        exact .inr ⟨attempt, hlast, houtcome.symm, by rw [hlimits]⟩

/-! ### Commands that are given up -/

theorem outcome_of_cancelled {attempt : Attempt} (hcancelled : attempt.waited = Waited.cancelled) :
    attempt.outcome client command = .error .callCancelled := by
  rw [Exchange.outcome, Exchange.received, hcancelled]
  rfl

theorem not_repeatable_of_cancelled {attempt : Attempt} {total : Option Time}
    (hcancelled : attempt.waited = Waited.cancelled) :
    ¬ attempt.Repeatable client command total := by
  rintro ⟨fault, hfault, hkind⟩
  rw [outcome_of_cancelled hcancelled] at hfault
  obtain rfl := Except.error.inj hfault
  rcases hkind with hkind | ⟨hkind, -⟩ <;> cases hkind

/-- An attempt that is given up while it waits for its reply is the last one. -/
theorem getLast?_of_cancelled {attempt : Attempt} (hmem : attempt ∈ attemptsIn history)
    (hcancelled : attempt.waited = Waited.cancelled)
    (h : (client.execute command).run.Ends history result) :
    (attemptsIn history).getLast? = some attempt ∧
      result = .error { Fault.callCancelled with
        iteration := some (attemptsIn history).length
        inDoubt := command.isWrite &&
          (attemptsIn history).any fun attempt => attempt.leavesDoubt client command } := by
  have hnot : ∀ total, ¬ attempt.Repeatable client command total :=
    fun _ => not_repeatable_of_cancelled hcancelled
  rcases execute_course h with
    ⟨fault, -, rfl, -⟩ | ⟨payload, start, id, later, -, -, -, outcome, last, hcourse, hresult⟩
  · cases hmem
  rcases hcourse.ending with ⟨fault, -, -, hall⟩ | ⟨final, hfinal, houtcome, hlast, -⟩
  · exact absurd (hall attempt hmem) (hnot _)
  obtain ⟨index, hindex⟩ := List.mem_iff_getElem?.mp hmem
  have hnone : ¬ index + 1 < (attemptsIn history).length := fun hfollowed =>
    hnot _ (hcourse.repeatable_of_followed index attempt hindex hfollowed).2
  obtain rfl := eq_last_of_not_followed hindex hnone hfinal
  refine ⟨hfinal, ?_⟩
  rw [hresult, houtcome, outcome_of_cancelled hcancelled,
    show last = (attemptsIn history).length by omega]
  rfl

/-- A command that is given up after a request was handed over and before its reply came ends with a
cancellation, and what the request has done leaves no doubt: the fault is in doubt only if one of the
earlier attempts of a write has left doubt. -/
theorem execute_of_given_up {attempt : Attempt} (hmem : attempt ∈ attemptsIn history)
    (hcancelled : attempt.waited = Waited.cancelled)
    (h : (client.execute command).run.Ends history result) :
    result = .error { Fault.callCancelled with
      iteration := some (attemptsIn history).length
      inDoubt := command.isWrite &&
        (attemptsIn history).dropLast.any fun attempt => attempt.leavesDoubt client command } := by
  obtain ⟨hlast, rfl⟩ := getLast?_of_cancelled hmem hcancelled h
  have hsure : attempt.leavesDoubt client command = false :=
    Exchange.leavesDoubt_of_error (outcome_of_cancelled hcancelled)
  obtain ⟨earlier, hearlier⟩ := List.getLast?_eq_some_iff.mp hlast
  rw [hearlier, List.dropLast_concat, List.any_append, List.any_cons, hsure, List.any_nil,
    Bool.or_false, Bool.or_false]

/-- A client of a session that may be cancelled. -/
def sessionClient : Client :=
  { bareClient with scope := .session }

/-- Surroundings in which a call is cancelled as soon as it waits. -/
def cancelling : Surroundings
  | _, .wait .. => Waited.cancelled
  | _, question => calmAnswer question

/-- A write that may be tried once. -/
def touchOnce : Command where
  key := {}
  policy := .forWrites
  action := .touch

theorem touch_cancelled :
    ∃ history attempt,
      (sessionClient.execute touchOnce).run.Ends history
        (.error { Fault.callCancelled with iteration := some 1 }) ∧
      attemptsIn history = [attempt] ∧ attempt.waited = Waited.cancelled := by
  obtain ⟨history, hhistory, hends⟩ :=
    ends_runIn cancelling (sessionClient.execute touchOnce).run []
  rw [List.nil_append] at hhistory
  have hfault : faultOf? ((sessionClient.execute touchOnce).run.runIn cancelling []).1 =
      some { Fault.callCancelled with iteration := some 1 } := by
    decide +kernel
  have hwaited : (attemptsIn history).map (·.waited) = [Waited.cancelled] := by
    rw [← hhistory]
    decide +kernel
  obtain ⟨attempt, hone, hcancelled⟩ := List.map_eq_singleton_iff.mp hwaited
  rw [eq_error_of_faultOf? hfault] at hends
  exact ⟨history, attempt, hends, hone, hcancelled⟩

theorem touch_given_up :
    ∃ history result,
      (sessionClient.execute touchOnce).run.Ends history result ∧
      (attemptsIn history).length = 1 ∧
      (faultOf? result).map (fun fault => (fault.kind, fault.inDoubt)) = some (.cancelled, false) := by
  obtain ⟨history, attempt, hends, hone, hcancelled⟩ := touch_cancelled
  have hmem : attempt ∈ attemptsIn history := by
    rw [hone]
    exact List.mem_singleton_self attempt
  have hresult := execute_of_given_up hmem hcancelled hends
  refine ⟨history, _, hends, by rw [hone, List.length_singleton], ?_⟩
  rw [hresult, hone]
  rfl

/-- A write that is given up while the gateway has its request is not always in doubt. -/
theorem given_up_write_not_in_doubt :
    ¬ ∀ (client : Client) (command : Command) (history : History) (fault : Fault),
      command.isWrite = true → (client.execute command).run.Ends history (.error fault) →
      (∃ attempt ∈ attemptsIn history, attempt.waited = Waited.cancelled) →
      fault.kind = .cancelled → fault.inDoubt = true := by
  intro hall
  obtain ⟨history, attempt, hends, hone, hcancelled⟩ := touch_cancelled
  have hmem : attempt ∈ attemptsIn history := by
    rw [hone]
    exact List.mem_singleton_self attempt
  cases hall _ _ _ _ rfl hends ⟨attempt, hmem, hcancelled⟩ rfl

end Client
end RecordGateway
