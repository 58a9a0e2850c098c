import RecordGateway.CommandLine.Usage

/-! Scripts that teach a shell to complete the words of a command line. -/

namespace RecordGateway.CommandLine

/-- The shells for which there is a script. -/
inductive Shell where
  | bash
  | elvish
  | fish
  | powershell
  | zsh
deriving DecidableEq, Repr

namespace Shell

def all : List Shell :=
  [.bash, .elvish, .fish, .powershell, .zsh]

def name : Shell → String
  | .bash => "bash"
  | .elvish => "elvish"
  | .fish => "fish"
  | .powershell => "powershell"
  | .zsh => "zsh"

/-- The shell with a given name. -/
def ofName? (text : String) : Option Shell :=
  all.find? (·.name = text)

/-- The words that may come first. -/
def firstWords : List String :=
  Subcommand.all.map (·.name) ++ ["help"]

def completion : Shell → String
  | .bash =>
    "complete -o default -W \"" ++ " ".intercalate firstWords ++ " --help --version --stream\" "
      ++ program ++ "\n"
  | .elvish =>
    "set edit:completion:arg-completer[" ++ program ++ "] = \x7b|@words| put "
      ++ " ".intercalate firstWords ++ " --help --version --stream \x7d\n"
  | .fish =>
    String.join <|
      (Subcommand.all.map fun s =>
        "complete -c " ++ program ++ " -n __fish_use_subcommand -f -a " ++ s.name ++ " -d '"
          ++ s.purpose ++ "'\n")
      ++ (Subcommand.all.flatMap fun s =>
        s.ownOptions.map fun (option, purpose) =>
          "complete -c " ++ program ++ " -n '__fish_seen_subcommand_from " ++ s.name ++ "' -l "
            ++ String.ofList (option.toList.drop 2) ++ " -d '" ++ purpose ++ "'\n")
  | .powershell =>
    "Register-ArgumentCompleter -Native -CommandName " ++ program
      ++ " -ScriptBlock \x7b param($word) @("
      ++ ", ".intercalate (firstWords.map fun word => "'" ++ word ++ "'")
      ++ ") | Where-Object \x7b $_ -like \"$word*\" \x7d \x7d\n"
  | .zsh =>
    "#compdef " ++ program ++ "\n_arguments '1:command:(" ++ " ".intercalate firstWords
      ++ ")' '--stream' '*:file:_files'\n"

end Shell
end RecordGateway.CommandLine
