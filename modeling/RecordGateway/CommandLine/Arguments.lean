import RecordGateway.CommandLine.Completion
import RecordGateway.Text.ControlSequence

/-!
Reading the arguments of the program. They are taken one after the other: the first that asks for
help or the version, or that has no place, decides. A value is looked at only when the next option
is taken or the arguments have come to their end, so an argument without a place is refused before
a bad value that stands to its left.
-/

namespace RecordGateway.CommandLine

/-- What the program is told to do. -/
inductive Invocation where
  | help (subcommand : Option Subcommand)
  | helpOnHelp
  | version (subcommand : Option Subcommand)
  | decode (file : String) (isStream : Bool)
  | token (text : String)
  | completion (shell : Shell)
deriving DecidableEq, Repr

/-- Why the arguments make no sense. -/
inductive Refusal where
  | unknownSubcommand (name : String)
  | unexpectedArgument (argument : String)
  /-- A value was attached to an option that takes none. -/
  | unexpectedValue (value option : String)
  | repeatedOption (option : String)
  | invalidValue (value parameter : String)
  | missingValue (parameter : String)
  | missingArguments
  /-- Nothing at all was said, to the program or to a subcommand. -/
  | nothingSaid (subcommand : Option Subcommand)
deriving DecidableEq, Repr

namespace Refusal

/-- What an argument said, in quotes. Control sequences are left out, and one that has not come to
its end does not reach beyond the quotes. -/
def quoted (said : String) : String :=
  "'" ++ ControlSequence.strip said ++ "'"

def text : Refusal → String
  | .unknownSubcommand name => "unrecognized subcommand " ++ quoted name
  | .unexpectedArgument argument => "unexpected argument " ++ quoted argument ++ " found"
  | .unexpectedValue value option =>
    "unexpected value " ++ quoted value ++ " for " ++ quoted option
      ++ " found; no more were expected"
  | .repeatedOption option => "the argument " ++ quoted option ++ " cannot be used multiple times"
  | .invalidValue value parameter => "invalid value " ++ quoted value ++ " for " ++ quoted parameter
  | .missingValue parameter =>
    "a value is required for " ++ quoted parameter ++ " but none was supplied"
  | .missingArguments => "the following required arguments were not provided:"
  | .nothingSaid none => purpose
  | .nothingSaid (some subcommand) => subcommand.purpose

/-- The characters without a carriage return at their end. -/
def dropLastReturn (chars : List Char) : List Char :=
  if chars.getLast? = some '\r' then chars.dropLast else chars

/-- The first line of the refusal in words. -/
def message (refusal : Refusal) : String :=
  String.ofList (dropLastReturn (refusal.text.toList.takeWhile (· ≠ '\n')))

end Refusal

inductive Shape where
  /-- Two dashes alone, after which nothing is an option. -/
  | dashes
  /-- A long option and perhaps, after an equals sign, its value. -/
  | long (name : String) (value : Option String)
  /-- A row of one-letter options. -/
  | short (first : Char)
  | plain
deriving DecidableEq, Repr

/-- The form of an argument. A single dash is no option. -/
def Shape.ofArgument (argument : String) : Shape :=
  match argument.toList with
  | ['-', '-'] => .dashes
  | '-' :: '-' :: rest =>
    let name := String.ofList (rest.takeWhile (· ≠ '='))
    match rest.dropWhile (· ≠ '=') with
    | [] => .long name none
    | _ :: value => .long name (some (String.ofList value))
  | '-' :: first :: _ => .short first
  | _ => .plain

/-- The options. -/
inductive Switch where
  | help
  | version
  | stream
deriving DecidableEq, Repr

namespace Switch

def name : Switch → String
  | .help => "help"
  | .version => "version"
  | .stream => "stream"

/-- An option as it is written. -/
def written (switch : Switch) : String :=
  "--" ++ switch.name

/-- The options of a subcommand, or of the program as a whole. -/
def available : Option Subcommand → List Switch
  | some .decode => [.help, .version, .stream]
  | _ => [.help, .version]

/-- The option that a long or a short argument names. -/
def read (subcommand : Option Subcommand) : Shape → Except Refusal (Option Switch)
  | .long name value =>
    match (available subcommand).find? (·.name = name), value with
    | none, _ => .error (.unexpectedArgument ("--" ++ name))
    | some switch, some value => .error (.unexpectedValue value switch.written)
    | some switch, none => .ok (some switch)
  | .short 'h' => .ok (some .help)
  | .short 'V' => .ok (some .version)
  | .short letter => .error (.unexpectedArgument (String.ofList ['-', letter]))
  | .dashes | .plain => .ok none

end Switch

/-- What a subcommand has been told so far. -/
structure Told where
  subcommand : Subcommand
  value : Option String := none
  isStream : Bool := false
deriving DecidableEq, Repr

namespace Told

/-- What the value of a subcommand makes of it; a file needs a name, and a shell must be known. -/
def accept (told : Told) (value : String) : Except Refusal Invocation :=
  match told.subcommand with
  | .decode =>
    if value = "" then .error (.missingValue told.subcommand.parameter)
    else .ok (.decode value told.isStream)
  | .token => .ok (.token value)
  | .completion =>
    match Shell.ofName? value with
    | some shell => .ok (.completion shell)
    | none =>
      if value = "" then .error (.missingValue told.subcommand.parameter)
      else .error (.invalidValue value told.subcommand.parameter)

/-- Refuses a value that is no good, if there is one. -/
def checkValue (told : Told) : Except Refusal Unit :=
  match told.value with
  | none => .ok ()
  | some value => discard (told.accept value)

/-- What is to be done when all has been said. -/
def finish (told : Told) : Except Refusal Invocation :=
  match told.value with
  | some value => told.accept value
  | none =>
    if told.isStream then .error .missingArguments
    else .error (.nothingSaid (some told.subcommand))

/-- Takes a value, of which there can be only one. -/
def addValue (told : Told) (argument : String) : Except Refusal Told :=
  match told.value with
  | none => .ok { told with value := some argument }
  | some _ => .error (.unexpectedArgument argument)

/-- Reads the arguments of a subcommand. -/
def read (told : Told) : List String → Except Refusal Invocation
  | [] => told.finish
  | argument :: rest =>
    match Shape.ofArgument argument with
    | .dashes => do (← rest.foldlM addValue told).finish
    | .plain => do read (← told.addValue argument) rest
    | shape => do
      let switch ← Switch.read (some told.subcommand) shape
      told.checkValue
      match switch with
      | some .help => return .help (some told.subcommand)
      | some .version => return .version (some told.subcommand)
      | some .stream =>
        if told.isStream then throw (.repeatedOption Switch.stream.written)
        else read { told with isStream := true } rest
      | none => read told rest

end Told

/-- Reads what follows the word for help: the names of a subcommand and of those below it, of which
there are none. -/
def readHelp : List String → Except Refusal Invocation
  | [] => .ok (.help none)
  | name :: rest => do
    let invocation ←
      if name = "help" then pure .helpOnHelp
      else
        match Subcommand.ofName? name with
        | some subcommand => pure (.help (some subcommand))
        | none => throw (.unknownSubcommand name)
    match rest with
    | [] => return invocation
    | name :: _ => throw (.unknownSubcommand name)

/-- Refuses what follows two dashes: a subcommand cannot stand there. -/
def refuseAfterDashes : List String → Refusal
  | [] => .nothingSaid none
  | argument :: _ =>
    if argument = "help" ∨ (Subcommand.ofName? argument).isSome then .unexpectedArgument argument
    else .unknownSubcommand argument

/-- Reads the arguments of the program. -/
def Invocation.read : List String → Except Refusal Invocation
  | [] => .error (.nothingSaid none)
  | argument :: rest =>
    match Subcommand.ofName? argument with
    | some subcommand => Told.read { subcommand } rest
    | none =>
      if argument = "help" then readHelp rest
      else
        match Shape.ofArgument argument with
        | .dashes => .error (refuseAfterDashes rest)
        | .plain => .error (.unknownSubcommand argument)
        | shape => do
          match ← Switch.read none shape with
          | some .version => return .version none
          | _ => return .help none

end RecordGateway.CommandLine
