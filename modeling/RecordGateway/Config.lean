import RecordGateway.Decimal.Layout
import RecordGateway.Fault.Report
import RecordGateway.Json.Document

/-! The configuration of a client, which a document may give in part: what it leaves out keeps its
default. -/

namespace RecordGateway

/-- The name and password with which a client asks for access tokens. -/
structure Credentials where
  user : String
  password : String
deriving DecidableEq, Repr

structure Config where
  credentials : Option Credentials := none
  maxErrorLength : Nat := 10240
  errorSeparator : String := " -> "
  queueCapacity : Nat := 5000
  /-- After which part of its lifetime an access token is replaced. -/
  refreshFraction : Float := 0.8
  /-- How long to wait after a login that failed, in milliseconds. -/
  retryInterval : Nat := 1000
  /-- What the client calls itself. -/
  clientVersion : String := "kvgate-0.1.0"

namespace Config

/-- A number in a message is written in full, and a whole number without a fraction. -/
def numberLayout : Decimal.Layout where
  least := none
  greatest := none
  keepFraction := false
  plusSign := false
  tie := .upper
  infinity := "inf"
  nan := "NaN"

/-- Refuses a configuration that no client can work with. -/
def check (config : Config) : Except Fault Config :=
  if !(0 < config.refreshFraction && config.refreshFraction < 1) then
    .error <| .client <| "token_refresh_fraction must be in (0, 1), got "
      ++ numberLayout.write config.refreshFraction.toBits
  else if config.queueCapacity = 0 then
    .error (.client "query_queue_capacity must be positive")
  else if config.maxErrorLength = 0 then
    .error (.client "max_error_message_len must be positive")
  else
    .ok config

/-- How the client writes the messages of its faults. -/
def reporter (config : Config) : Fault.Reporter where
  maxLength := config.maxErrorLength
  separator := config.errorSeparator

/-- The credentials that a document states. -/
def readCredentials? (document : Json.Document) : Option Credentials := do
  match ← document.fields? ["user", "password"] with
  | [some user, some password] => return ⟨← user.asString?, ← password.asString?⟩
  | _ => none

def readOptionalCredentials? : Json.Document → Option (Option Credentials)
  | .null => some none
  | document => (readCredentials? document).map some

/-- A number of at most sixty-four bits. -/
def readNat? (document : Json.Document) : Option Nat :=
  (document.asIntWithin? 0 (UInt64.size - 1 : Nat)).map Int.toNat

/-- The value of a field that may be missing. -/
def orDefault {α : Type} (default : α) (read? : Json.Document → Option α)
    (field : Option Json.Document) : Option α :=
  match field with
  | none => some default
  | some document => read? document

/-- The names of the fields, in the order in which an array gives them. -/
def fieldNames : List String :=
  ["credentials", "max_error_message_len", "error_separator", "query_queue_capacity",
    "token_refresh_fraction", "token_retry_interval_ms", "client_version"]

/-- The configuration that a document states, whether a client can work with it or not. -/
def ofDocument? (document : Json.Document) : Option Config := do
  let default : Config := {}
  match ← document.fields? fieldNames with
  | [credentials, maxErrorLength, errorSeparator, queueCapacity, refreshFraction, retryInterval,
      clientVersion] =>
    return {
      credentials := ← orDefault none readOptionalCredentials? credentials
      maxErrorLength := ← orDefault default.maxErrorLength readNat? maxErrorLength
      errorSeparator := ← orDefault default.errorSeparator (·.asString?) errorSeparator
      queueCapacity := ← orDefault default.queueCapacity readNat? queueCapacity
      refreshFraction := ← orDefault default.refreshFraction (·.asFloat?) refreshFraction
      retryInterval := ← orDefault default.retryInterval readNat? retryInterval
      clientVersion := ← orDefault default.clientVersion (·.asString?) clientVersion }
  | _ => none

/-- The configuration in a text, whether a client can work with it or not. -/
def readUnchecked (text : String) : Except Fault Config :=
  match Json.Document.read? (utf8 text) >>= ofDocument? with
  | some config => .ok config
  | none => .error (.client "invalid client config json" ["invalid json document"])

def read (text : String) : Except Fault Config := do
  (← readUnchecked text).check

/-- The fault of a configuration file that cannot be read. -/
def unreadable (path : String) : Fault :=
  .client ("failed to read config " ++ path) ["the file cannot be read"]

end Config
end RecordGateway
