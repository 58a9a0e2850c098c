import RecordGateway.Text.Utf8
import RecordGateway.Json.Numeral

/-!
Documents in JSON, read from bytes. The grammar is the standard's, without any of the usual
extensions: no comments, no trailing commas, no leading zeros or plus signs, blanks only between
tokens. A string whose bytes or escapes are not text is kept without a text, because a document may
carry it where nobody looks.
-/

namespace RecordGateway.Json

/-- A document, with the members of an object in the order in which they stand. -/
inductive Document where
  | null
  | bool (value : Bool)
  | number (value : Numeral)
  | string (text : Option String)
  | array (items : List Document)
  | object (members : List (Option String × Document))

/-- Drops the blanks that may stand between tokens. -/
def skipBlanks : Bytes → Bytes
  | [] => []
  | byte :: rest =>
    if byte = 0x20 ∨ byte = 0x0A ∨ byte = 0x0D ∨ byte = 0x09 then skipBlanks rest
    else byte :: rest

/-- Whether a byte is a decimal digit. -/
def isDigit (byte : UInt8) : Bool :=
  0x30 ≤ byte && byte ≤ 0x39

/-- The digits at the beginning, and what follows them. -/
def takeDigits (bytes : Bytes) : List Nat × Bytes :=
  ((bytes.takeWhile isDigit).map fun byte => byte.toNat - 0x30, bytes.dropWhile isDigit)

/-- The fraction at the beginning, if a point begins one. -/
def takeFractionPart : Bytes → Option (Option (List Nat) × Bytes)
  | 0x2E :: rest =>
    match takeDigits rest with
    | ([], _) => none
    | (digits, rest) => some (some digits, rest)
  | bytes => some (none, bytes)

/-- The exponent at the beginning, if there is one. -/
def takeExponentPart : Bytes → Option (Option Int × Bytes)
  | byte :: rest =>
    if byte = 0x65 ∨ byte = 0x45 then
      let (negative, rest) := match rest with
        | 0x2D :: rest => (true, rest)
        | 0x2B :: rest => (false, rest)
        | rest => (false, rest)
      match takeDigits rest with
      | ([], _) => none
      | (digits, rest) =>
        let magnitude : Int := digitsValue digits
        some (some (if negative then -magnitude else magnitude), rest)
    else
      some (none, byte :: rest)
  | [] => some (none, [])

/-- The number at the beginning. -/
def takeNumber (bytes : Bytes) : Option (Numeral × Bytes) := do
  let (negative, bytes) := match bytes with
    | 0x2D :: rest => (true, rest)
    | bytes => (false, bytes)
  let (whole, bytes) := takeDigits bytes
  match whole with
  | [] => none
  | 0 :: _ :: _ => none
  | whole =>
    let (fraction, bytes) ← takeFractionPart bytes
    let (exponent, bytes) ← takeExponentPart bytes
    return (⟨negative, whole, fraction, exponent⟩, bytes)

/-- The value of a hexadecimal digit. -/
def hexDigit? (byte : UInt8) : Option Nat :=
  if isDigit byte then some (byte.toNat - 0x30)
  else if 0x61 ≤ byte ∧ byte ≤ 0x66 then some (byte.toNat - 0x61 + 10)
  else if 0x41 ≤ byte ∧ byte ≤ 0x46 then some (byte.toNat - 0x41 + 10)
  else none

/-- The four hexadecimal digits at the beginning. -/
def takeHex4 : Bytes → Option (Nat × Bytes)
  | a :: b :: c :: d :: rest => do
    let a ← hexDigit? a
    let b ← hexDigit? b
    let c ← hexDigit? c
    let d ← hexDigit? d
    return (((a * 16 + b) * 16 + c) * 16 + d, rest)
  | _ => none

/-- One piece of a string: plain bytes, or a unit of a `\u` escape, which may be half a
character. -/
inductive Piece where
  | byte (value : UInt8)
  | unit (value : Nat)

/-- The byte that a one-letter escape stands for. -/
def escapedByte? (letter : UInt8) : Option UInt8 :=
  if letter = 0x22 ∨ letter = 0x5C ∨ letter = 0x2F then some letter
  else if letter = 0x62 then some 0x08
  else if letter = 0x66 then some 0x0C
  else if letter = 0x6E then some 0x0A
  else if letter = 0x72 then some 0x0D
  else if letter = 0x74 then some 0x09
  else none

/-- The pieces of a string up to its closing quote, and what follows it. -/
def takePieces : Nat → Bytes → Option (List Piece × Bytes)
  | 0, _ => none
  | _, [] => none
  | _ + 1, 0x22 :: rest => some ([], rest)
  | fuel + 1, 0x5C :: 0x75 :: rest => do
    let (unit, rest) ← takeHex4 rest
    let (pieces, rest) ← takePieces fuel rest
    return (.unit unit :: pieces, rest)
  | fuel + 1, 0x5C :: letter :: rest => do
    let byte ← escapedByte? letter
    let (pieces, rest) ← takePieces fuel rest
    return (.byte byte :: pieces, rest)
  | _ + 1, [0x5C] => none
  | fuel + 1, byte :: rest => do
    if byte < 0x20 then none
    let (pieces, rest) ← takePieces fuel rest
    return (.byte byte :: pieces, rest)

/-- The bytes of a string: two halves of a character are joined, a lone half is no text. -/
def joinPieces? : List Piece → Option Bytes
  | [] => some []
  | .byte byte :: rest => (joinPieces? rest).map (byte :: ·)
  | .unit high :: .unit low :: rest =>
    if 0xD800 ≤ high ∧ high < 0xDC00 then
      if 0xDC00 ≤ low ∧ low < 0xE000 then
        let c := Char.ofNat (0x10000 + (high - 0xD800) * 0x400 + (low - 0xDC00))
        (joinPieces? rest).map (utf8 c.toString ++ ·)
      else none
    else if 0xDC00 ≤ high ∧ high < 0xE000 then none
    else (joinPieces? (.unit low :: rest)).map (utf8 (Char.ofNat high).toString ++ ·)
  | .unit unit :: rest =>
    if 0xD800 ≤ unit ∧ unit < 0xE000 then none
    else (joinPieces? rest).map (utf8 (Char.ofNat unit).toString ++ ·)

/-- The string after an opening quote. -/
def takeString (bytes : Bytes) : Option (Option String × Bytes) := do
  let (pieces, rest) ← takePieces (bytes.length + 1) bytes
  return (joinPieces? pieces >>= Utf8.decode?, rest)

mutual

/-- The document at the beginning, after blanks. -/
def takeDocument : Nat → Bytes → Option (Document × Bytes)
  | 0, _ => none
  | fuel + 1, bytes =>
    match skipBlanks bytes with
    | 0x6E :: 0x75 :: 0x6C :: 0x6C :: rest => some (.null, rest)
    | 0x74 :: 0x72 :: 0x75 :: 0x65 :: rest => some (.bool true, rest)
    | 0x66 :: 0x61 :: 0x6C :: 0x73 :: 0x65 :: rest => some (.bool false, rest)
    | 0x22 :: rest => (takeString rest).map fun (text, rest) => (.string text, rest)
    | 0x5B :: rest =>
      match skipBlanks rest with
      | 0x5D :: rest => some (.array [], rest)
      | rest => (takeItems fuel rest).map fun (items, rest) => (.array items, rest)
    | 0x7B :: rest =>
      match skipBlanks rest with
      | 0x7D :: rest => some (.object [], rest)
      | rest => (takeMembers fuel rest).map fun (members, rest) => (.object members, rest)
    | rest => (takeNumber rest).map fun (number, rest) => (.number number, rest)

/-- The items of an array up to its closing bracket. -/
def takeItems : Nat → Bytes → Option (List Document × Bytes)
  | 0, _ => none
  | fuel + 1, bytes => do
    let (item, rest) ← takeDocument fuel bytes
    match skipBlanks rest with
    | 0x2C :: rest => do
      let (items, rest) ← takeItems fuel rest
      return (item :: items, rest)
    | 0x5D :: rest => return ([item], rest)
    | _ => none

/-- The members of an object up to its closing brace. -/
def takeMembers : Nat → Bytes → Option (List (Option String × Document) × Bytes)
  | 0, _ => none
  | fuel + 1, bytes => do
    match skipBlanks bytes with
    | 0x22 :: rest => do
      let (name, rest) ← takeString rest
      match skipBlanks rest with
      | 0x3A :: rest => do
        let (value, rest) ← takeDocument fuel rest
        match skipBlanks rest with
        | 0x2C :: rest => do
          let (members, rest) ← takeMembers fuel rest
          return ((name, value) :: members, rest)
        | 0x7D :: rest => return ([(name, value)], rest)
        | _ => none
      | _ => none
    | _ => none

end

/-- The document that the bytes hold, with nothing but blanks around it. Every step of the reader
takes at least one byte, so twice their number bounds the depth of its calls. -/
def Document.read? (bytes : Bytes) : Option Document :=
  match takeDocument (2 * bytes.length + 1) bytes with
  | some (document, rest) => if skipBlanks rest = [] then some document else none
  | none => none

namespace Document

def asString? : Document → Option String
  | .string text => text
  | _ => none

/-- The integer of a number between the bounds. -/
def asIntWithin? (least greatest : Int) : Document → Option Int
  | .number numeral => numeral.toIntWithin? least greatest
  | _ => none

/-- The floating-point number of a number. -/
def asFloat? : Document → Option Float
  | .number numeral => numeral.toFloat?
  | _ => none

/-- The fields of a record with the given field names, in that order: an object in which none of
them stands twice, or an array that gives them from the first on. Members with other names are
passed over. -/
def fields? (names : List String) : Document → Option (List (Option Document))
  | .object members => do
    if members.any fun (name, _) => name.isNone then none
    names.mapM fun name =>
      match members.filter fun (found, _) => found = some name with
      | [] => some none
      | [(_, value)] => some (some value)
      | _ => none
  | .array items =>
    if items.length ≤ names.length then
      some (items.map some ++ List.replicate (names.length - items.length) none)
    else
      none
  | _ => none

end Document
end RecordGateway.Json
