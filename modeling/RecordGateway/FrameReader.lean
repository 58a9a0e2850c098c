import RecordGateway.Fault.Report
import RecordGateway.Flow
import RecordGateway.Group.Body

/-!
Reading an answer that comes in frames. Where one frame ends and the next begins means nothing: the
payloads are one run of bytes, and reading asks for as many frames as it needs. The last frame says
that it is the last; a stream that closes before it is broken off.
-/

namespace RecordGateway

structure FrameReader where
  stream : FrameStream
  limits : Limits := {}
  reporter : Fault.Reporter := {}
  /-- Bytes that have arrived and are not read yet. -/
  buffer : Bytes := []
  /-- The number of bytes read or passed over. -/
  offset : Nat := 0
  /-- The number of frames that have arrived. -/
  frames : Nat := 0
  /-- Whether the last frame has arrived. -/
  ended : Bool := false
deriving Repr

namespace FrameReader

/-- An activity of a reader; its state remains when it fails. -/
abbrev Reading := ExceptT Fault (StateT FrameReader Flow)

def ask (question : Ask) : Reading question.Answer :=
  ExceptT.lift (StateT.lift (Flow.query question))

/-- Fixes the arrival of the first frame, if nobody has waited for it yet, and waits for it. A
stream without frames has nothing more to wait for, unless it stalls. -/
def waitForFrame : Reading Waited := do
  let reader ← get
  let stream := reader.stream
  let due ← match stream.due, stream.arrivals with
    | some due, _ => pure due
    | none, [] => pure (if stream.stalls then none else some 0)
    | none, first :: _ => do
      let now ← ask .clock
      pure (first.delay.map (now + ·))
  set { reader with stream := { stream with due } }
  ask (.wait due reader.limits)

/-- Takes the frame that has arrived. -/
def takeFrame : Reading Unit := do
  let reader ← get
  match reader.stream.arrivals with
  | [] =>
    throw <| .parse <| s!"stream closed after {reader.frames} frames without a terminal frame"
  | ⟨_, .error status⟩ :: rest =>
    set { reader with stream := { reader.stream with arrivals := rest, due := none } }
    throw (reader.reporter.ofStatus status reader.limits.isWrite)
  | ⟨_, .ok response⟩ :: rest =>
    let reader := { reader with
      stream := { reader.stream with arrivals := rest, due := none }
      frames := reader.frames + 1
      ended := !response.hasNext }
    if response.status ≠ 0 then
      set reader
      throw (.ofResponse response.status.toInt response.inDoubt reader.limits.isWrite)
    set { reader with buffer := reader.buffer ++ response.payload }

/-- Takes in one more frame; `false` when the last one has arrived before. -/
def nextFrame : Reading Bool := do
  if (← get).ended then
    return false
  match ← waitForFrame with
  | .cancelled => throw .callCancelled
  | .timedOut => throw (.deadlineExceeded (← get).limits.isWrite)
  | .arrived =>
    takeFrame
    return true

/-- Takes in frames until the buffer is enough; `false` when the answer ends before. Each frame is
taken once, so `fuel` may be one more than their number. -/
def fillFrom (enough : Bytes → Bool) : Nat → Reading Bool
  | 0 => return false
  | fuel + 1 => do
    if enough (← get).buffer then
      return true
    if ← nextFrame then
      fillFrom enough fuel
    else
      return false

/-- Takes in frames until the buffer is enough; `false` when the answer ends before. -/
def fill (enough : Bytes → Bool) : Reading Bool := do
  fillFrom enough ((← get).stream.arrivals.length + 1)

def readExact (count : Nat) : Reading Bytes := do
  let filled ← fill fun buffer => count ≤ buffer.length
  let reader ← get
  if filled then
    set { reader with
      buffer := reader.buffer.drop count
      offset := reader.offset + count }
    return reader.buffer.take count
  else
    throw <| .parse <|
      s!"stream ended {count - reader.buffer.length} bytes short of a {count} byte read "
        ++ s!"at offset {reader.offset}"

/-- Whether every byte of the answer has been read. -/
def atEnd : Reading Bool :=
  return !(← fill fun buffer => !buffer.isEmpty)

/-- The body of the next group, if there is another. -/
def readGroup : Reading (Option Bytes) := do
  if ← atEnd then
    return none
  let header ← Group.Header.decode (← readExact Group.headerLength)
  let body ← readExact header.size
  return some (← Group.unwrap header body)

/-- Passes over everything up to the last frame. -/
def drainFrom : Nat → Reading Unit
  | 0 => return
  | fuel + 1 => do
    modify fun reader =>
      { reader with offset := reader.offset + reader.buffer.length, buffer := [] }
    if ← nextFrame then
      drainFrom fuel

/-- Passes over everything up to the last frame. -/
def drain : Reading Unit := do
  drainFrom ((← get).stream.arrivals.length + 1)

/-- An answer of a single frame that has arrived. Whatever the frame says, it is the last. -/
def ofResponse (response : Envelope.Response) (limits : Limits) (reporter : Fault.Reporter) :
    FrameReader :=
  { stream := { arrivals := [⟨some 0, .ok { response with hasNext := false }⟩] }, limits, reporter }

/-- The number of bytes that are still to be read, with those that have not arrived. -/
def pending (reader : FrameReader) : Nat :=
  reader.stream.arrivals.foldr (fun arrival total =>
    match arrival.value with
    | .ok response => response.payload.length + total
    | .error _ => total) reader.buffer.length

end FrameReader
end RecordGateway
