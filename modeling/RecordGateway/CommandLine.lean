import RecordGateway.CommandLine.Arguments
import RecordGateway.CommandLine.Listing

/-!
The program as a whole: what it prints and with which status it ends, given its arguments and the
file that they name. What goes wrong is a fault, printed as a line of its own, and the kind of the
fault is the status. Over a token whose lifetime cannot be counted the program breaks down and prints
nothing.
-/

namespace RecordGateway.CommandLine

/-- The file that has to be read to carry an invocation out. -/
def Invocation.file? : Invocation → Option String
  | .decode file _ => some file
  | _ => none

/-- A file as it was found: its bytes, or why there are none. -/
abbrev Found := Except String Bytes

/-- The fault of arguments that make no sense. -/
def Refusal.fault (refusal : Refusal) : Fault :=
  .client refusal.message

/-- The text in which a listing is printed. -/
def printListing (listing : Json.Value) : String :=
  listing.pretty ++ "\n"

/-- What an invocation prints, or the fault with which it ends, given what reading its file gave;
nothing if the program breaks down. -/
def Invocation.print (found : Found) : Invocation → Option (Except Fault String)
  | .help subcommand => some (.ok (CommandLine.help subcommand))
  | .helpOnHelp => some (.ok CommandLine.helpOnHelp)
  | .version subcommand => some (.ok (versionLine subcommand))
  | .completion shell => some (.ok shell.completion)
  | .token text => (listToken text).map fun listing => printListing <$> listing
  | .decode file isStream =>
    match found with
    | .error reason => some (.error (.client ("failed to read " ++ file) [reason]))
    | .ok payload => some (printListing <$> listPayload payload isStream)

/-- The status with which the program ends if it breaks down. -/
def brokenStatus : Nat := 101

/-- What the program prints, or the fault with which it ends, or nothing; `read` stands for the
files. -/
def run {m : Type → Type} [Monad m] (read : String → m Found) (arguments : List String) :
    m (Option (Except Fault String)) := do
  match Invocation.read arguments with
  | .error refusal => return some (.error refusal.fault)
  | .ok invocation =>
    let found ← match invocation.file? with
      | some file => read file
      | none => pure (.ok [])
    return invocation.print found

end RecordGateway.CommandLine
