import RecordGateway.Call

/-!
Flows: activities that now and then ask something of their surroundings and go on with the answer.
A flow is a tree, finite along every branch, so whatever surroundings answer it comes to an end or
waits for an answer. The surroundings decide what time it is, what the gateway replies, and in which
order several flows go on.
-/

namespace RecordGateway

inductive Ask where
  | clock
  /-- A fresh number for a request. -/
  | drawId
  /-- A number for a background task, drawn at random. -/
  | drawTaskId
  | isCancelled (scope : Scope)
  /-- Waits for something that is due at a given moment, or never comes. -/
  | wait (due : Option Time) (limits : Limits)
  /-- Waits for a usable access token. -/
  | credential (limits : Limits)
  /-- Asks for a new login without waiting for it. -/
  | renewCredential
  /-- Hands over a request that has one response. -/
  | send (call : Call)
  /-- Hands over a request that has a stream of responses. -/
  | openStream (call : Call)
  /-- Waits for room in the queue of a record set and puts an item there; the answer says whether
  anybody still reads the queue. -/
  | offer (set : Nat) (item : RecordSet.Item)
  /-- Waits for the next item in the queue of a record set; there is none once the queue is empty
  and nobody will fill it. -/
  | receive (set : Nat)

/-- The type of the answer to a question. -/
abbrev Ask.Answer : Ask → Type
  | .clock => Time
  | .drawId => UInt32
  | .drawTaskId => UInt64
  | .isCancelled _ => Bool
  | .wait .. => Waited
  | .credential _ => Credential.Answer
  | .renewCredential => Unit
  | .send _ => Delayed (Except Status Envelope.Response)
  | .openStream _ => Delayed (Except Status FrameStream)
  | .offer .. => Bool
  | .receive _ => Option RecordSet.Item

/-- An activity that ends with a value of type `α`. -/
inductive Flow (α : Type) where
  | done (value : α)
  | ask (question : Ask) (next : question.Answer → Flow α)

namespace Flow

variable {α β γ : Type}

def andThen : Flow α → (α → Flow β) → Flow β
  | .done value, continuation => continuation value
  | .ask question next, continuation =>
    .ask question fun answer => (next answer).andThen continuation

instance : Monad Flow where
  pure := .done
  bind := andThen

theorem done_bind (value : α) (f : α → Flow β) : (.done value >>= f) = f value := rfl

theorem ask_bind (question : Ask) (next : question.Answer → Flow α) (f : α → Flow β) :
    (.ask question next >>= f) = .ask question fun answer => next answer >>= f := rfl

theorem bind_done (flow : Flow α) : (flow >>= .done) = flow := by
  induction flow with
  | done => rfl
  | ask question next ih => simp only [ask_bind, ih]

theorem bind_assoc (flow : Flow α) (f : α → Flow β) (g : β → Flow γ) :
    (flow >>= f >>= g) = flow >>= fun value => f value >>= g := by
  induction flow with
  | done => rfl
  | ask question next ih => simp only [ask_bind, ih]

instance : LawfulMonad Flow :=
  LawfulMonad.mk' Flow bind_done (fun _ _ => rfl) bind_assoc

/-- Asks one question and ends with its answer. -/
def query (question : Ask) : Flow question.Answer :=
  .ask question .done

def clock : Flow Time := query .clock

/-- Waits for a span of time, whatever else happens. -/
def sleep (span : Time) : Flow Unit := do
  let now ← clock
  discard (query (.wait (some (now + span)) {}))

/-- The answers of surroundings in which nothing takes time, nothing is cancelled, and nobody is
there to be called. -/
def calmAnswer : (question : Ask) → question.Answer
  | .clock => (0 : Nat)
  | .drawId => (0 : UInt32)
  | .drawTaskId => (0 : UInt64)
  | .isCancelled _ => false
  | .wait .. => Waited.arrived
  | .credential _ => Credential.Answer.stopped
  | .renewCredential => ()
  | .send _ => ⟨some 0, .error ⟨.unavailable, "", []⟩⟩
  | .openStream _ => ⟨some 0, .error ⟨.unavailable, "", []⟩⟩
  | .offer .. => false
  | .receive _ => none

/-- What a flow ends with in calm surroundings. -/
def undisturbed : Flow α → α
  | .done value => value
  | .ask question next => (next (calmAnswer question)).undisturbed

@[simp] theorem undisturbed_pure (value : α) : (pure value : Flow α).undisturbed = value := rfl

@[simp] theorem undisturbed_bind (flow : Flow α) (f : α → Flow β) :
    (flow >>= f).undisturbed = (f flow.undisturbed).undisturbed := by
  induction flow with
  | done => rfl
  | ask question next ih => exact ih _

end Flow
end RecordGateway
