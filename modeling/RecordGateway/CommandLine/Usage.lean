/-!
What the program can be told to do, and how it explains itself. Three subcommands do the work; each
takes one value, and `decode` has an option besides.
-/

namespace RecordGateway.CommandLine

def program : String := "kvgate"

def version : String := "0.1.0"

def purpose : String := "Inspect record-database proxy payloads and access tokens"

/-- The subcommands that do the work. -/
inductive Subcommand where
  | decode
  | token
  | completion
deriving DecidableEq, Repr

namespace Subcommand

/-- All subcommands in the order in which they are listed. -/
def all : List Subcommand :=
  [.decode, .token, .completion]

/-- The name by which a subcommand is called. -/
def name : Subcommand → String
  | .decode => "decode"
  | .token => "token"
  | .completion => "completion"

/-- The subcommand with a given name. -/
def ofName? (text : String) : Option Subcommand :=
  all.find? (·.name = text)

def purpose : Subcommand → String
  | .decode => "Decode a captured native response payload"
  | .token => "Show the validity window of an access token"
  | .completion => "Generate shell completions"

/-- What the value of a subcommand is called. -/
def parameter : Subcommand → String
  | .decode => "<FILE>"
  | .token => "<TOKEN>"
  | .completion => "<SHELL>"

/-- What the value of a subcommand means. -/
def parameterPurpose : Subcommand → String
  | .decode => "Payload file"
  | .token => "Access token as issued by the gateway"
  | .completion => "Shell to generate completions for"

/-- The names of the options that only this subcommand has, and their purposes. -/
def ownOptions : Subcommand → List (String × String)
  | .decode => [("--stream", "Treat the file as a multi-row stream payload")]
  | _ => []

end Subcommand

/-- The options that can be given everywhere. -/
def generalOptions : List (String × String) :=
  [("-h, --help", "Print help"), ("-V, --version", "Print version")]

/-- Lines with a word and its purpose, the purposes aligned. -/
def aligned (entries : List (String × String)) : List String :=
  let width := (entries.map fun (word, _) => word.length).foldl max 0
  entries.map fun (word, purpose) =>
    "  " ++ word ++ String.ofList (List.replicate (width - word.length) ' ') ++ "  " ++ purpose

/-- The help of the program as a whole, or of one subcommand. -/
def help : Option Subcommand → String
  | none =>
    "\n".intercalate <|
      [purpose, "", "Usage: " ++ program ++ " <COMMAND>", "", "Commands:"]
        ++ aligned (Subcommand.all.map (fun s => (s.name, s.purpose))
          ++ [("help", "Print this message or the help of the given subcommand(s)")])
        ++ ["", "Options:"] ++ aligned generalOptions ++ [""]
  | some subcommand =>
    "\n".intercalate <|
      [subcommand.purpose, "",
        "Usage: " ++ program ++ " " ++ subcommand.name ++ " [OPTIONS] " ++ subcommand.parameter,
        "", "Arguments:"]
        ++ aligned [(subcommand.parameter, subcommand.parameterPurpose)]
        ++ ["", "Options:"] ++ aligned (subcommand.ownOptions ++ generalOptions) ++ [""]

/-- The help of the command that gives help. -/
def helpOnHelp : String :=
  "\n".intercalate
    ["Print this message or the help of the given subcommand(s)", "",
      "Usage: " ++ program ++ " help [COMMAND]...", ""]

/-- The name of the program or of one of its subcommands, with the version. -/
def versionLine : Option Subcommand → String
  | none => program ++ " " ++ version ++ "\n"
  | some subcommand => program ++ "-" ++ subcommand.name ++ " " ++ version ++ "\n"

end RecordGateway.CommandLine
