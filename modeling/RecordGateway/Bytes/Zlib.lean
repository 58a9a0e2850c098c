import RecordGateway.Bytes.Deflate

/-!
The zlib envelope: two bytes of header, deflate blocks, and a checksum of the expanded bytes.
Whatever follows the checksum is not looked at.
-/

namespace RecordGateway.Zlib

/-- The checksum: the sum of the bytes plus one, and the sum of those sums, each modulo the largest
prime below two to the sixteenth. -/
def checksum (bytes : Bytes) : Nat :=
  let (low, high) := bytes.foldl
    (fun (low, high) byte =>
      let low := (low + byte.toNat) % 65521
      (low, (high + low) % 65521))
    (1, 0)
  65536 * high + low

/-- The two header bytes name the deflate method with a window of at most 32 KiB, ask for no preset
dictionary, and are a multiple of thirty-one. -/
def headerValid (method flags : Nat) : Bool :=
  method % 16 = 8 ∧ method / 16 ≤ 7 ∧ flags.testBit 5 = false ∧ (256 * method + flags) % 31 = 0

def readEnvelope : Deflate.BitReader Bytes := do
  let method ← Deflate.readNat 8
  let flags ← Deflate.readNat 8
  if !headerValid method flags then
    failure
  let bytes ← Deflate.readAll
  Deflate.alignToByte
  let claimed ← Deflate.readBytes 4 #[]
  if BigEndian.decode claimed.toList = checksum bytes then return bytes else failure

/-- The bytes that an envelope holds; `none` if it is malformed, cut short or damaged. Where there
is no envelope at all there are no bytes. -/
def inflate (bytes : Bytes) : Option Bytes :=
  if bytes.isEmpty then some []
  else (readEnvelope.run (Deflate.bitsOf bytes)).map (·.1)

end RecordGateway.Zlib
