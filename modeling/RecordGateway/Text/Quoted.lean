import RecordGateway.Bytes.Hex
import RecordGateway.Text.Visible

/-!
Quoted forms of texts and byte strings, for messages that show a value exactly: a quote, a
backslash and whatever could not be seen are written as escapes.
-/

namespace RecordGateway.Quoted

/-- The hexadecimal digits of a number, without leading zeros. -/
def hexNumber (n : Nat) : List Char :=
  Nat.toDigits 16 n

/-- One character inside a quoted text. -/
def escapeChar (c : Char) : List Char :=
  match c with
  | '"' => ['\\', '"']
  | '\\' => ['\\', '\\']
  | '\n' => ['\\', 'n']
  | '\r' => ['\\', 'r']
  | '\t' => ['\\', 't']
  | '\x00' => ['\\', '0']
  | c => if isVisible c then [c] else ['\\', 'u', '\x7b'] ++ hexNumber c.toNat ++ ['\x7d']

/-- One byte inside a quoted byte string. -/
def escapeByte (byte : UInt8) : List Char :=
  let n := byte.toNat
  if n = 0x22 then ['\\', '"']
  else if n = 0x5C then ['\\', '\\']
  else if n = 0x0A then ['\\', 'n']
  else if n = 0x0D then ['\\', 'r']
  else if n = 0x09 then ['\\', 't']
  else if n = 0 then ['\\', '0']
  else if 0x20 ≤ n ∧ n < 0x7F then [Char.ofNat n]
  else ['\\', 'x'] ++ Hex.ofByte byte

def text (s : String) : String :=
  String.ofList (['"'] ++ s.toList.flatMap escapeChar ++ ['"'])

/-- A byte string in double quotes, marked with a leading `b`. -/
def bytes (data : Bytes) : String :=
  String.ofList (['b', '"'] ++ data.flatMap escapeByte ++ ['"'])

end RecordGateway.Quoted
