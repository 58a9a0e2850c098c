import RecordGateway.Bytes.Zlib
import RecordGateway.Group.Header

/-!
The body of a group. A plain body is what it is. A compressed body gives a length in eight bytes
and then a compressed stream that must expand to exactly that many bytes, which form one whole plain
group.
-/

namespace RecordGateway.Group

/-- The plain body of what a compressed body expands to. -/
def innerBody (inflated : Bytes) : Except Fault Bytes := do
  let inner ← Header.decode inflated
  if inner.isCompressed then
    throw (.parse "nested compressed message")
  if headerLength + inner.size ≠ inflated.length then
    throw (.parse "inner message size mismatch")
  return inflated.drop headerLength

/-- The rows of a body, with a given way to expand compressed bytes. -/
def unwrapWith (inflate : Bytes → Option Bytes) (header : Header) (body : Bytes) :
    Except Fault Bytes := do
  if !header.isCompressed then
    return body
  if body.length < headerLength then
    throw (.parse "compressed body missing length prefix")
  let expected := BigEndian.decode (body.take headerLength)
  if maxSize + headerLength < expected then
    throw (.parse "compressed length exceeds max")
  match inflate (body.drop headerLength) with
  | none => throw (.parse "failed to inflate message" ["corrupt deflate stream"])
  | some inflated =>
    if inflated.length ≠ expected then
      throw (.parse s!"inflated {inflated.length} bytes, expected {expected}")
    innerBody inflated

def unwrap (header : Header) (body : Bytes) : Except Fault Bytes :=
  unwrapWith Zlib.inflate header body

end RecordGateway.Group
