import RecordGateway.Bytes.BigEndian
import RecordGateway.Fault

/-!
A place in the body of a group. Reading moves forward by exactly the bytes read, and a read that
asks for more than there is fails and does not move.
-/

namespace RecordGateway.Row

/-- The bytes still to be read, and how many have been read. -/
structure Cursor where
  rest : Bytes
  position : Nat := 0
deriving DecidableEq, Repr

namespace Cursor

/-- The number of bytes still to be read. -/
def remaining (cursor : Cursor) : Nat :=
  cursor.rest.length

/-- Whether all bytes have been read. -/
def isAtEnd (cursor : Cursor) : Bool :=
  cursor.rest.isEmpty

def take (count : Nat) (cursor : Cursor) : Except Fault (Bytes × Cursor) :=
  let taken := cursor.rest.take count
  if taken.length < count then
    .error <| .parse <| s!"record truncated: need {count} bytes at offset {cursor.position}, "
      ++ s!"have {cursor.remaining}"
  else
    .ok (taken, ⟨cursor.rest.drop count, cursor.position + count⟩)

end Cursor

/-- A reader that moves a cursor forward. When it fails the cursor stays where it came to. -/
abbrev Reader := ExceptT Fault (StateM Cursor)

/-- What a reader finds at the beginning of the bytes. -/
def Reader.outcome {α : Type} (reader : Reader α) (bytes : Bytes) : Except Fault α :=
  (reader.run.run { rest := bytes }).1

def readBytes (count : Nat) : Reader Bytes :=
  ExceptT.mk fun cursor =>
    match cursor.take count with
    | .ok (bytes, cursor) => (.ok bytes, cursor)
    | .error fault => (.error fault, cursor)

def skip (count : Nat) : Reader Unit :=
  discard (readBytes count)

def readNat (width : Nat) : Reader Nat :=
  return BigEndian.decode (← readBytes width)

def readByte : Reader UInt8 :=
  return (← readNat 1).toUInt8

def readUInt16 : Reader UInt16 :=
  return (← readNat 2).toUInt16

def readUInt32 : Reader UInt32 :=
  return (← readNat 4).toUInt32

end RecordGateway.Row
