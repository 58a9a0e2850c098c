import RecordGateway.Call
import RecordGateway.Credential.Token
import RecordGateway.Fault.Report

/-!
The refresher holds the access token of a client. It asks for one, waits until it is time for the
next, or until somebody asks for a new one, and asks again. A login that fails leaves a token that
is still valid in place, and so does a token whose lifetime cannot be counted, over which the
refresher breaks down. A reader is only ever given a token that has not expired.
-/

namespace RecordGateway.Credential

inductive Holding where
  /-- No login has been answered yet. -/
  | pending
  | ready (token : Token)
  /-- There is no token, for the given reason. -/
  | failed (reason : String)
deriving DecidableEq, Repr

inductive Phase where
  /-- A login is about to be made. -/
  | starting
  /-- A login is answered at a given moment, or never. -/
  | loggingIn (due : Option Time) (outcome : Except Status String)
  /-- Nothing is to be done until the given moment; `woken` means that somebody has asked for a new
  token meanwhile. -/
  | pausing (until_ : Time) (woken : Bool)
  | stopped

structure Refresher.Settings where
  reporter : Fault.Reporter
  /-- After which part of its lifetime a token is replaced. -/
  fraction : Float
  /-- How long to wait after a login that failed. -/
  retryInterval : Time

/-- The holder of a client's access token. -/
structure Refresher where
  phase : Phase := .starting
  holding : Holding := .pending
  /-- How often what readers find has been replaced. -/
  revision : Nat := 0
  /-- Whether somebody asked for a new token while a login was being made. -/
  asked : Bool := false

namespace Refresher

def publish (refresher : Refresher) (holding : Holding) : Refresher :=
  { refresher with holding, revision := refresher.revision + 1 }

/-- Asks for a new token. A pause ends; otherwise one request is remembered. -/
def ask (refresher : Refresher) : Refresher :=
  match refresher.phase with
  | .pausing until_ false => { refresher with phase := .pausing until_ true }
  | _ => { refresher with asked := true }

/-- Whether there is a token that has not expired. -/
def holdsValid (refresher : Refresher) (now : Time) : Bool :=
  match refresher.holding with
  | .ready token => !token.isExpired now
  | _ => false

/-- The token in the answer to a login, or why there is none; nothing if the refresher breaks down
over it. -/
def Settings.receive (settings : Settings) (now : Time) (outcome : Except Status String) :
    Option (Except Fault Token) :=
  match outcome with
  | .ok text => Token.receive text now settings.fraction
  | .error status => some (.error (settings.reporter.ofStatus status false))

/-- Takes the answer to a login. A request that came meanwhile cuts the pause short. -/
def settle (settings : Settings) (refresher : Refresher) (now : Time)
    (outcome : Except Status String) : Refresher :=
  match settings.receive now outcome with
  | none => { refresher with phase := .stopped }
  | some received =>
    let (refresher, until_) := match received with
      | .ok token => (refresher.publish (.ready token), max now token.renewAt)
      | .error fault =>
        (if refresher.holdsValid now then refresher
          else refresher.publish (.failed (settings.reporter.explain fault)),
          now + settings.retryInterval)
    { refresher with phase := .pausing until_ refresher.asked, asked := false }

/-- What becomes of the refresher of itself at a given moment, if anything does. -/
def step? (settings : Settings) (refresher : Refresher) (now : Time) : Option Refresher :=
  match refresher.phase with
  | .loggingIn (some due) outcome =>
    if due ≤ now then some (settle settings refresher now outcome) else none
  | .pausing until_ woken =>
    if woken ∨ until_ ≤ now then some { refresher with phase := .starting } else none
  | _ => none

/-- When the refresher has something to do of itself. -/
def due? (refresher : Refresher) : Option Time :=
  match refresher.phase with
  | .loggingIn due _ => due
  | .pausing until_ _ => some until_
  | _ => none

/-- What a reader is told who looks now, if it need not wait, and whether it
asks for a new token. -/
def look (refresher : Refresher) (now : Time) : Option Answer × Bool :=
  let waiting : Option Answer := match refresher.phase with
    | .stopped => some .stopped
    | _ => none
  match refresher.holding with
  | .ready token =>
    if token.isExpired now then (waiting, true) else (some (.token token.text), false)
  | .failed reason => (some (.refused reason), false)
  | .pending => (waiting, false)

end Refresher
end RecordGateway.Credential
