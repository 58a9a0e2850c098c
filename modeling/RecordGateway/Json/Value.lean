import RecordGateway.Bytes.Hex
import RecordGateway.Decimal.Layout

/-!
Values to be written as JSON. The members of an object are written in the order of their names.
-/

namespace RecordGateway.Json

inductive Value where
  | null
  | bool (value : Bool)
  | int (value : Int)
  | float (bits : UInt64)
  | string (text : String)
  | array (items : List Value)
  | object (members : List (String × Value))

/-- Numbers from `1e-5` to below `1e16` are written in full, and a fraction is always shown. -/
def numberLayout : Decimal.Layout where
  least := some (-5)
  greatest := some 15
  keepFraction := true
  plusSign := true
  tie := .even
  infinity := "null"
  nan := "null"

/-- The text of a double; what is not finite has none. -/
def floatText (bits : UInt64) : String :=
  match Decimal.Number.ofBits bits with
  | .nan | .infinity _ => "null"
  | number => numberLayout.number number

def escapeChar (c : Char) : List Char :=
  match c with
  | '"' => ['\\', '"']
  | '\\' => ['\\', '\\']
  | '\n' => ['\\', 'n']
  | '\r' => ['\\', 'r']
  | '\t' => ['\\', 't']
  | '\x08' => ['\\', 'b']
  | '\x0c' => ['\\', 'f']
  | c => if c.toNat < 0x20 then ['\\', 'u', '0', '0'] ++ Hex.ofByte c.toNat.toUInt8 else [c]

/-- A text as a string with its quotes. -/
def quote (text : String) : String :=
  String.ofList (['"'] ++ text.toList.flatMap escapeChar ++ ['"'])

/-- A new line and two blanks for each level. -/
def newLine (depth : Nat) : String :=
  "\n" ++ String.ofList (List.replicate (2 * depth) ' ')

/-- Puts a member in its place by name. -/
def insertMember (member : String × Value) : List (String × Value) → List (String × Value)
  | [] => [member]
  | first :: rest =>
    if member.1 ≤ first.1 then member :: first :: rest else first :: insertMember member rest

/-- An object with its members in the order of their names. -/
def Value.ofMembers (members : List (String × Value)) : Value :=
  .object (members.foldr insertMember [])

namespace Value

mutual

/-- The text of a value on one line. -/
def compact : Value → String
  | .null => "null"
  | .bool value => if value then "true" else "false"
  | .int value => toString value
  | .float bits => floatText bits
  | .string text => quote text
  | .array items => "[" ++ compactItems items ++ "]"
  | .object members => "\x7b" ++ compactMembers members ++ "\x7d"

/-- The texts of the items between commas. -/
def compactItems : List Value → String
  | [] => ""
  | [item] => compact item
  | item :: rest => compact item ++ "," ++ compactItems rest

/-- The texts of the members between commas. -/
def compactMembers : List (String × Value) → String
  | [] => ""
  | [(name, value)] => quote name ++ ":" ++ compact value
  | (name, value) :: rest =>
    quote name ++ ":" ++ compact value ++ "," ++ compactMembers rest

end

mutual

/-- The text of a value over several lines, each level indented by two blanks. -/
def indented (depth : Nat) : Value → String
  | .array [] => "[]"
  | .array (item :: rest) =>
    "[" ++ indentedItems (depth + 1) (item :: rest) ++ newLine depth ++ "]"
  | .object [] => "\x7b\x7d"
  | .object (member :: rest) =>
    "\x7b" ++ indentedMembers (depth + 1) (member :: rest) ++ newLine depth ++ "\x7d"
  | .null => "null"
  | .bool value => if value then "true" else "false"
  | .int value => toString value
  | .float bits => floatText bits
  | .string text => quote text

/-- The texts of the items, each on its own lines. -/
def indentedItems (depth : Nat) : List Value → String
  | [] => ""
  | [item] => newLine depth ++ indented depth item
  | item :: rest => newLine depth ++ indented depth item ++ "," ++ indentedItems depth rest

/-- The texts of the members, each on its own lines. -/
def indentedMembers (depth : Nat) : List (String × Value) → String
  | [] => ""
  | [(name, value)] => newLine depth ++ quote name ++ ": " ++ indented depth value
  | (name, value) :: rest =>
    newLine depth ++ quote name ++ ": " ++ indented depth value ++ ","
      ++ indentedMembers depth rest

end

/-- The text of a value over several lines. -/
def pretty (value : Value) : String :=
  indented 0 value

end Value
end RecordGateway.Json
