import RecordGateway.Row.Bins
import RecordGateway.Text.Blank
import RecordGateway.Value.Inspect

/-!
What a row means for its caller: a record, its absence, or a fault. A script that ran in the
database reports its own failure in a bin, as a text that may carry a result code.
-/

namespace RecordGateway

namespace Udf

/-- The bin in which a script leaves its result. -/
def successBin : String := "SUCCESS"

/-- The bin in which a script reports that it failed. -/
def failureBin : String := "FAILURE"

/-- The characters before the first colon and those after it. -/
def splitAtColon? : List Char → Option (List Char × List Char)
  | [] => none
  | c :: rest =>
    if c = ':' then some ([], rest)
    else (splitAtColon? rest).map fun (before, after) => (c :: before, after)

/-- The number that decimal digits spell; nothing but digits, and at least one. -/
def readDigits? (chars : List Char) : Option Nat :=
  if chars = [] ∨ !chars.all Char.isDigit then none
  else some (chars.foldl (fun acc c => 10 * acc + (c.toNat - '0'.toNat)) 0)

/-- A decimal integer with an optional sign, if it fits in thirty-two bits. -/
def readCode? (chars : List Char) : Option ResultCode := do
  let value : Int ← match chars with
    | '-' :: digits => (fun n => -(n : Int)) <$> readDigits? digits
    | '+' :: digits => (fun n => (n : Int)) <$> readDigits? digits
    | digits => (fun n => (n : Int)) <$> readDigits? digits
  if Int32.minValue.toInt ≤ value ∧ value ≤ Int32.maxValue.toInt then some value else none

/-- The parts of a text of the form `file:line:code:message` whose third part is a number. -/
def splitReport? (chars : List Char) : Option (ResultCode × List Char) := do
  let (file, rest) ← splitAtColon? chars
  let (line, rest) ← splitAtColon? rest
  let (code, message) ← splitAtColon? rest
  let code ← readCode? (trimBlanks code)
  return (code, file ++ [':'] ++ line ++ [' '] ++ trimBlanks message)

/-- The result code and the message in the text that a failed script leaves. A text of another form
is a message without a code of its own. -/
def readReport (text : String) : ResultCode × String :=
  match splitReport? text.toList with
  | some (code, message) => (code, String.ofList message)
  | none => (.udfBadResponse, text)

/-- The failure that a record reports, if it reports one. -/
def failure? (record : Record) : Option Fault :=
  (record.get? failureBin).map fun value =>
    let (code, message) := readReport (value.asText?.getD value.inspect)
    { Fault.ofCode code with message := some message }

end Udf

namespace Row

/-- Which outcomes count as a fault and not as the absence of a record. -/
structure Strictness where
  notFoundFails : Bool := false
  filteredOutFails : Bool := false
deriving DecidableEq, Repr

/-- The record of a row, its absence, or a fault. -/
def resolve (header : Header) (record : Record) (strictness : Strictness) :
    Except Fault (Option Record) :=
  let code := header.resultCode
  if code = .ok then
    match Udf.failure? record with
    | some fault => .error fault
    | none => .ok (some record)
  else if code = .keyNotFound ∧ !strictness.notFoundFails then .ok none
  else if code = .filteredOut ∧ !strictness.filteredOutFails then .ok none
  else if code = .udfBadResponse then
    .error ((Udf.failure? record).getD (.ofCode .udfBadResponse))
  else .error (.ofCode code)

end Row
end RecordGateway
