/-!
Removing terminal control sequences from a text, so that it reads the same wherever it is printed.
A sequence begins with the escape character and changes what the characters after it mean; the
reader below keeps track of that. Of the control characters outside of a sequence only the blanks
are kept.
-/

namespace RecordGateway.ControlSequence

/-- What the next character belongs to. -/
inductive Mode where
  /-- The text itself. -/
  | text
  /-- A sequence of which only the escape character has been seen. -/
  | escape
  /-- An escape sequence whose last character is still to come. -/
  | intermediate
  /-- The parameters of a sequence that was opened by a bracket. -/
  | parameters
  /-- A command to the operating system, which a bell ends too. -/
  | command
  /-- Any other string for the terminal. -/
  | string
deriving DecidableEq, Repr

/-- Whether a control character is a blank, which is kept. -/
def isKeptBlank (c : Char) : Bool :=
  c ∈ ['\t', '\n', '\x0c', '\r']

/-- Whether a mode is that of a string, which holds control characters like any others. -/
def Mode.isString (mode : Mode) : Bool :=
  mode = .command || mode = .string

/-- What the character after the escape character begins. -/
def afterEscape (c : Char) : Mode :=
  if c = '[' then .parameters
  else if c = ']' then .command
  else if c ∈ ['P', 'X', '^', '_'] then .string
  else if c.toNat < 0x30 then .intermediate
  else .text

/-- The mode after a printable ASCII character. -/
def Mode.afterPrintable (mode : Mode) (c : Char) : Mode :=
  match mode with
  | .text => .text
  | .escape => afterEscape c
  | .intermediate => if c.toNat < 0x30 then .intermediate else .text
  | .parameters => if c.toNat < 0x40 then .parameters else .text
  | .command => .command
  | .string => .string

/-- What is left of a character beyond ASCII that breaks a sequence off: its first byte is lost to
the sequence, and each of the others can only be shown as the replacement character. -/
def remnant (c : Char) : List Char :=
  List.replicate (c.utf8Size - 1) '\uFFFD'

/-- The mode after a character, and what is shown of it. The escape character begins a sequence
anywhere, and the two characters for cancelling end one anywhere. -/
def step (mode : Mode) (c : Char) : Mode × List Char :=
  if c = '\x1b' then (.escape, [])
  else if c = '\x18' ∨ c = '\x1a' then (.text, [])
  else if 0x80 ≤ c.toNat then (.text, if mode = .text then [c] else remnant c)
  else if c = '\x7f' then (mode, [])
  else if 0x20 ≤ c.toNat then (mode.afterPrintable c, if mode = .text then [c] else [])
  else if mode.isString then (if mode = .command ∧ c = '\x07' then .text else mode, [])
  else if isKeptBlank c then (.text, [c])
  else (mode, [])

/-- What is shown of a text when it begins in a given mode. -/
def shownFrom : Mode → List Char → List Char
  | _, [] => []
  | mode, c :: rest =>
    let (mode, shown) := step mode c
    shown ++ shownFrom mode rest

/-- A text without its control sequences. -/
def strip (s : String) : String :=
  String.ofList (shownFrom .text s.toList)

end RecordGateway.ControlSequence
