import RecordGateway.Batch.Action
import RecordGateway.Command

/-!
The encoder of requests in the database's own format. It is given to the client from outside; the
client only carries its bytes, and its refusals.
-/

namespace RecordGateway

/-- Encodes requests. -/
structure Framer where
  command : Command → Except Fault Bytes
  batch : Policy → List (Key × Batch.Action) → Except Fault Bytes
  value : Value → Except Fault Bytes

end RecordGateway
