import RecordGateway.Client.Streams
import RecordGateway.Credential.Refresher
import RecordGateway.RecordSet.Queue

/-!
Sessions: a client among its surroundings. The surroundings are a clock that stands still while
there is something to do, a gateway whose answers are listed in advance, and the activities that go
on beside the calls: the refresher of the access token, the filling of record sets, and the alarms
that cancel the session. This module says how a question is answered at a given moment;
`Session.Run` lets time pass.
-/

namespace RecordGateway

/-- A record set of a session. -/
structure Session.Set where
  queue : RecordSet.Queue
  /-- What is left of filling the set. -/
  activity : Option (Flow Unit)
  /-- Which state of the access token the activity has looked at, while it waits for another. -/
  seen : Option Nat := none
  isCancelled : Bool := false
  isDropped : Bool := false
  reader : RecordSet.Reader := {}

/-- A cancellation of the session that was asked for in advance. It is one of the activities: first
it begins to wait for its moment, and once that has come, it cancels. -/
structure Session.Alarm where
  due : Time
  isWaiting : Bool := false
  /-- The record sets that go on before it. -/
  ahead : List Nat

/-- The answers of the gateway, in the order in which they are given. Where there is `none`, the
activity that asked breaks down. -/
structure Session.Script where
  responses : List (Delayed (Except Status Envelope.Response)) := []
  streams : List (Option (Delayed (Except Status FrameStream))) := []
  logins : List (Option (Delayed (Except Status String))) := []

structure Session where
  client : Client
  script : Session.Script
  now : Time := 0
  nextId : UInt32 := 1
  nextTaskId : UInt64 := 0x8000000000000000
  refresher : Option Credential.Refresher
  isCancelled : Bool := false
  alarms : List Session.Alarm := []
  sets : Array Session.Set := #[]
  /-- The requests handed over so far and when, the latest first. -/
  sent : List (Time × Call) := []
  /-- When logins were made so far, the latest first. -/
  logins : List Time := []

namespace Session

def start (client : Client) (script : Script) : Session where
  client := client
  script := script
  refresher := client.config.credentials.map fun _ => {}

def refresherSettings (session : Session) : Credential.Refresher.Settings where
  reporter := session.client.reporter
  fraction := session.client.config.refreshFraction
  retryInterval := session.client.config.retryInterval

/-- Whether a scope is cancelled. Record sets belong to the session only if the client does. -/
def scopeCancelled (session : Session) : Scope → Bool
  | .unlimited => false
  | .session => session.isCancelled
  | .recordSet number =>
    (session.client.scope == .session && session.isCancelled)
      || ((session.sets[number]?).map (·.isCancelled)).getD false

/-- What comes of a question at a given moment. -/
inductive Polled (α : Type) where
  | answered (answer : α) (session : Session)
  /-- There is no answer yet. -/
  | waiting (seen : Option Nat) (session : Session)
  /-- Whoever asked breaks down. -/
  | broken (session : Session)

def hasCome (session : Session) (moment : Option Time) : Bool :=
  moment.any (· ≤ session.now)

/-- How a wait ends at this moment, if it does. Cancellation is looked at first, then whether what
is waited for is there, and only then the deadline. -/
def waitEnd? (session : Session) (due : Option Time) (limits : Limits) : Option Waited :=
  if session.scopeCancelled limits.scope then some .cancelled
  else if session.hasCome due then some .arrived
  else if session.hasCome limits.deadline then some .timedOut
  else none

/-- Asks the refresher for a new token. -/
def renew (session : Session) : Session :=
  { session with refresher := session.refresher.map (·.ask) }

/-- What somebody is told who waits for an access token and has seen its state before, or not. -/
def pollCredential (session : Session) (seen : Option Nat) (limits : Limits) :
    Polled Credential.Answer :=
  if session.scopeCancelled limits.scope then .answered .cancelled session
  else
    match session.refresher with
    | none => .answered .stopped session
    | some refresher =>
      let (answer, asks) := refresher.look session.now
      if seen = some refresher.revision then
        match refresher.phase with
        | .stopped => .answered .stopped session
        | _ =>
          if session.hasCome limits.deadline then .answered .timedOut session
          else .waiting seen session
      else
        match answer with
        | some answer => .answered answer (if asks then session.renew else session)
        | none =>
          let session := if asks then session.renew else session
          if session.hasCome limits.deadline then .answered .timedOut session
          else .waiting (some refresher.revision) session

/-- Notes that a request was handed over. -/
def record (session : Session) (call : Call) : Session :=
  { session with sent := (session.now, call) :: session.sent }

def takeResponse (session : Session) : Delayed (Except Status Envelope.Response) × Session :=
  match session.script.responses with
  | [] => (⟨some 0, .error ⟨.internal, "no scripted unary reply", []⟩⟩, session)
  | response :: rest => (response, { session with script.responses := rest })

def takeStream (session : Session) : Option (Delayed (Except Status FrameStream)) × Session :=
  match session.script.streams with
  | [] => (some ⟨some 0, .error ⟨.internal, "no scripted stream", []⟩⟩, session)
  | stream :: rest => (stream, { session with script.streams := rest })

/-- The next answer to a login. -/
def takeLogin (session : Session) : Option (Delayed (Except Status String)) × Session :=
  match session.script.logins with
  | [] => (some ⟨some 0, .error ⟨.unavailable, "no scripted token", []⟩⟩, session)
  | login :: rest => (login, { session with script.logins := rest })

/-- The session with one of its record sets changed. -/
def updateSet (session : Session) (number : Nat) (change : Set → Set) : Session :=
  { session with sets := session.sets.modify number change }

/-- What comes of a question at this moment. -/
def poll (session : Session) (seen : Option Nat) : (question : Ask) → Polled question.Answer
  | .clock => .answered session.now session
  | .drawId => .answered session.nextId { session with nextId := session.nextId + 1 }
  | .drawTaskId =>
    .answered session.nextTaskId { session with nextTaskId := session.nextTaskId + 1 }
  | .isCancelled scope => .answered (session.scopeCancelled scope) session
  | .wait due limits =>
    match session.waitEnd? due limits with
    | some waited => .answered waited session
    | none => .waiting none session
  | .credential limits => session.pollCredential seen limits
  | .renewCredential => .answered () session.renew
  | .send call =>
    let (response, session) := (session.record call).takeResponse
    .answered response session
  | .openStream call =>
    match (session.record call).takeStream with
    | (some stream, session) => .answered stream session
    | (none, session) => .broken session
  | .offer number item =>
    match session.sets[number]? with
    | none => .answered false session
    | some set =>
      match set.queue.offer? item with
      | some (isRead, queue) =>
        .answered isRead (session.updateSet number fun set => { set with queue })
      | none => .waiting none session
  | .receive number =>
    match session.sets[number]? with
    | none => .answered none session
    | some set =>
      match set.queue.receive? with
      | some (item, queue) =>
        .answered item (session.updateSet number fun set => { set with queue })
      | none => .waiting none session

/-- The moments at which a question may get its answer merely because time has passed. -/
def wakeTimes : Ask → List Time
  | .wait due limits => due.toList ++ limits.deadline.toList
  | .credential limits => limits.deadline.toList
  | _ => []

end Session
end RecordGateway
