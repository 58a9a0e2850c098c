import RecordGateway.Bytes.BigEndian

/-!
Expanding the deflate format. The input is read as a list of bits, the lowest bit of each byte
first, and every block appends to the bytes produced so far: literally, or by repeating an earlier
stretch. Symbols are written in canonical prefix codes, which are given by the code length of each
symbol alone. Input that ends early or breaks a rule of the format is refused as a whole.
-/

namespace RecordGateway.Deflate

/-- The bits of a byte, lowest first. -/
def byteBits (byte : UInt8) : List Bool :=
  (List.range 8).map fun i => byte.toNat.testBit i

/-- The bits of a byte string in the order in which they are read. -/
def bitsOf (bytes : Bytes) : List Bool :=
  bytes.flatMap byteBits

/-- A reader of bits; `none` means that the input breaks the format or ends early. -/
abbrev BitReader := StateT (List Bool) Option

def readBit : BitReader Bool := fun
  | [] => none
  | bit :: rest => some (bit, rest)

/-- The next `count` bits as a number, lowest bit first. -/
def readNat : Nat → BitReader Nat
  | 0 => pure 0
  | count + 1 => do
    let bit ← readBit
    let rest ← readNat count
    return bit.toNat + 2 * rest

/-- Drops the bits left over in the byte being read. -/
def alignToByte : BitReader Unit :=
  modify fun bits => bits.drop (bits.length % 8)

/-- Appends the next whole bytes, read from an aligned position. -/
def readBytes : Nat → Array UInt8 → BitReader (Array UInt8)
  | 0, out => return out
  | count + 1, out => do
    let byte ← readNat 8
    readBytes count (out.push byte.toUInt8)

/-- The longest code that the format allows. -/
def maxCodeLength : Nat := 15

/-- A canonical prefix code: how many codes there are of each length from one up, and the symbols
in the order of their codes. -/
structure Code where
  counts : List Nat
  symbols : Array Nat

/-- How much of the code space codes of the given counts leave free, in units of the longest code;
`none` if they claim more than there is. -/
def freeSpace : Nat → List Nat → Option Nat
  | free, [] => some free
  | free, count :: rest => if count ≤ 2 * free then freeSpace (2 * free - count) rest else none

/-- The code in which symbol `i` has the length `lengths[i]`, zero for an absent symbol. It has to
use up the code space, unless it has no symbols at all or a single one, whose code is one bit. -/
def Code.ofLengths? (lengths : List Nat) : Option Code :=
  let ofLength (n : Nat) := (lengths.zipIdx.filter (·.1 = n)).map (·.2)
  let symbols := (List.range maxCodeLength).map fun i => ofLength (i + 1)
  let code := ⟨symbols.map List.length, symbols.flatten.toArray⟩
  let isTrivial := code.symbols.size = 0 ∨ (code.symbols.size = 1 ∧ 1 ∈ lengths)
  match freeSpace 1 code.counts with
  | none => none
  | some free => if free = 0 ∨ isTrivial then some code else none

/-- Reads a code bit by bit. Among the codes of one length the first is `first`, and its symbol
stands at `index`. -/
def readSymbolFrom (symbols : Array Nat) : List Nat → Nat → Nat → Nat → BitReader Nat
  | [], _, _, _ => failure
  | count :: rest, code, first, index => do
    let code := code + (← readBit).toNat
    if code < first + count then
      match symbols[index + (code - first)]? with
      | some symbol => return symbol
      | none => failure
    else
      readSymbolFrom symbols rest (2 * code) (2 * (first + count)) (index + count)

/-- The symbol of the next code. -/
def Code.readSymbol (code : Code) : BitReader Nat :=
  readSymbolFrom code.symbols code.counts 0 0 0

/-- For each length symbol its smallest length and its number of extra bits. -/
def lengthRanges : List (Nat × Nat) :=
  [(3, 0), (4, 0), (5, 0), (6, 0), (7, 0), (8, 0), (9, 0), (10, 0), (11, 1), (13, 1), (15, 1),
    (17, 1), (19, 2), (23, 2), (27, 2), (31, 2), (35, 3), (43, 3), (51, 3), (59, 3), (67, 4),
    (83, 4), (99, 4), (115, 4), (131, 5), (163, 5), (195, 5), (227, 5), (258, 0)]

/-- For each distance symbol its smallest distance and its number of extra bits. -/
def distanceRanges : List (Nat × Nat) :=
  [(1, 0), (2, 0), (3, 0), (4, 0), (5, 1), (7, 1), (9, 2), (13, 2), (17, 3), (25, 3), (33, 4),
    (49, 4), (65, 5), (97, 5), (129, 6), (193, 6), (257, 7), (385, 7), (513, 8), (769, 8),
    (1025, 9), (1537, 9), (2049, 10), (3073, 10), (4097, 11), (6145, 11), (8193, 12), (12289, 12),
    (16385, 13), (24577, 13)]

/-- The number that a range symbol and its extra bits stand for. -/
def readRanged (ranges : List (Nat × Nat)) (symbol : Nat) : BitReader Nat :=
  match ranges[symbol]? with
  | none => failure
  | some (least, extra) => return least + (← readNat extra)

/-- The byte that stands `distance` before the end. What stands before the beginning is zero. -/
def byteBefore (distance : Nat) (out : Array UInt8) : UInt8 :=
  if distance ≤ out.size then out.getD (out.size - distance) 0 else 0

/-- Appends `length` bytes, each the one that stands `distance` before the end. -/
def repeatBytes (distance : Nat) : Nat → Array UInt8 → Array UInt8
  | 0, out => out
  | length + 1, out => repeatBytes distance length (out.push (byteBefore distance out))

/-- The literals and repetitions of one block, up to its end symbol. -/
def readItems (literals distances : Code) : Nat → Array UInt8 → BitReader (Array UInt8)
  | 0, _ => failure
  | fuel + 1, out => do
    let symbol ← literals.readSymbol
    if symbol < 256 then
      readItems literals distances fuel (out.push symbol.toUInt8)
    else if symbol = 256 then
      return out
    else
      let length ← readRanged lengthRanges (symbol - 257)
      let distance ← readRanged distanceRanges (← distances.readSymbol)
      readItems literals distances fuel (repeatBytes distance length out)

/-- A block of bytes kept as they are. -/
def readStored (out : Array UInt8) : BitReader (Array UInt8) := do
  alignToByte
  let length ← readNat 16
  let complement ← readNat 16
  if length + complement = 0xFFFF then
    readBytes length out
  else
    failure

/-- The literal code of blocks that bring none of their own. -/
def fixedLiteralLengths : List Nat :=
  List.replicate 144 8 ++ List.replicate 112 9 ++ List.replicate 24 7 ++ List.replicate 8 8

/-- The distance code of blocks that bring none of their own. -/
def fixedDistanceLengths : List Nat :=
  List.replicate 32 5

/-- The order in which a block lists the lengths of the codes for code lengths. -/
def lengthCodeOrder : List Nat :=
  [16, 17, 18, 0, 8, 7, 9, 6, 10, 5, 11, 4, 12, 3, 13, 2, 14, 1, 15]

/-- Reads `missing` code lengths, where a symbol may stand for a run of them. -/
def readLengths (code : Code) : Nat → Nat → Array Nat → BitReader (List Nat)
  | _, 0, lengths => return lengths.toList
  | 0, _, _ => failure
  | fuel + 1, missing, lengths => do
    let symbol ← code.readSymbol
    if symbol < 16 then
      readLengths code fuel (missing - 1) (lengths.push symbol)
    else
      let (value, count) ←
        if symbol = 16 then
          match lengths.back? with
          | none => failure
          | some last => pure (last, 3 + (← readNat 2))
        else if symbol = 17 then
          pure (0, 3 + (← readNat 3))
        else
          pure (0, 11 + (← readNat 7))
      if count ≤ missing then
        readLengths code fuel (missing - count) (lengths ++ (List.replicate count value).toArray)
      else
        failure

/-- The two codes that a block brings with it. -/
def readCodes : BitReader (Code × Code) := do
  let literalCount := 257 + (← readNat 5)
  let distanceCount := 1 + (← readNat 5)
  let lengthCount := 4 + (← readNat 4)
  if 286 < literalCount ∨ 30 < distanceCount then
    failure
  let listed ← (lengthCodeOrder.take lengthCount).mapM fun symbol => do
    return (symbol, ← readNat 3)
  let lengthCode ← Code.ofLengths? <| (List.range 19).map fun symbol =>
    (listed.lookup symbol).getD 0
  let total := literalCount + distanceCount
  let lengths ← readLengths lengthCode total total #[]
  let literals ← Code.ofLengths? (lengths.take literalCount)
  let distances ← Code.ofLengths? (lengths.drop literalCount)
  return (literals, distances)

/-- One block, appended to the bytes before it. -/
def readBlock (out : Array UInt8) : BitReader (Array UInt8) := do
  let fuel := (← get).length + 1
  match ← readNat 2 with
  | 0 => readStored out
  | 1 =>
    let literals ← Code.ofLengths? fixedLiteralLengths
    let distances ← Code.ofLengths? fixedDistanceLengths
    readItems literals distances fuel out
  | 2 =>
    let (literals, distances) ← readCodes
    readItems literals distances fuel out
  | _ => failure

/-- Blocks up to the one marked as last. -/
def readBlocks : Nat → Array UInt8 → BitReader (Array UInt8)
  | 0, _ => failure
  | fuel + 1, out => do
    let last ← readBit
    let out ← readBlock out
    if last then return out else readBlocks fuel out

/-- Expands a whole stream of blocks. Every block takes at least one bit, so the number of bits
bounds the number of blocks. -/
def readAll : BitReader Bytes := do
  let fuel := (← get).length
  return (← readBlocks fuel #[]).toList

end RecordGateway.Deflate
