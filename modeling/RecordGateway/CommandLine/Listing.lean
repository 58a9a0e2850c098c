import RecordGateway.Bytes.Base64
import RecordGateway.Calendar
import RecordGateway.Credential.Claims
import RecordGateway.FrameReader
import RecordGateway.Json.Value
import RecordGateway.Row.Bins

/-! Rows of a captured payload, the validity of a token, and faults, as the program lists them. -/

namespace RecordGateway.CommandLine

/-- Bytes in a listing. -/
def listBytes (bytes : Bytes) : Json.Value :=
  .string (Base64.encode .standard bytes)

mutual

/-- A value in a listing. Bytes, shapes and packed collections say what they are. -/
def listValue : Value → Json.Value
  | .nil => .null
  | .bool value => .bool value
  | .int value => .int value.toInt
  | .float bits => .float bits
  | .string text => .string text
  | .blob bytes => .ofMembers [("blob", listBytes bytes)]
  | .geoJson text => .ofMembers [("geojson", .string text)]
  | .packed particle bytes =>
    .ofMembers [("particle", .int particle.toByte.toNat), ("packed", listBytes bytes)]
  | .list items => .array (listItems items)

/-- The items of a list in a listing. -/
def listItems : List Value → List Json.Value
  | [] => []
  | item :: rest => listValue item :: listItems rest

end

/-- A row in a listing. Of several rows each has its position. The end of a partition has no
record, but the digest that it tells. -/
def listRow (isStream : Bool) (header : Row.Header) (key : Row.KeyEcho) (record : Record) :
    Json.Value :=
  let position := if isStream then [("index", Json.Value.int header.index.toNat)] else []
  let contents :=
    if header.isPartitionDone then
      [("partition_done", Json.Value.int header.generation.toNat)]
    else
      [("generation", .int record.generation.toNat),
        ("expiration", .int record.expiration.toNat),
        ("bins", .ofMembers (record.bins.map fun (name, value) => (name, listValue value)))]
  let digest := key.digest.toList.map fun digest =>
    ("digest", Json.Value.string (Hex.encode digest.bytes))
  .ofMembers (position ++ [("result_code", .int header.resultCode)] ++ contents ++ digest)

/-- Reads one row; `none` is the row after the last. -/
def readListedRow (isStream : Bool) : Row.Reader (Option Json.Value) := do
  let header ← Row.Header.read
  if header.isLast then
    return none
  let (key, record) ← Row.readKeyed header
  return some (listRow isStream header key record)

/-- Reads the rows of a payload, or only the first of them. Every group takes at least one byte, so
`fuel` may be one more than the number of bytes. -/
def readListing (isStream : Bool) : Nat → FrameReader.Reading (List Json.Value)
  | 0 => return []
  | fuel + 1 => do
    match ← FrameReader.readGroup with
    | none => return []
    | some body =>
      let (rows, ending) := Row.unfold (readListedRow isStream) body.length { rest := body }
      match isStream, rows with
      | false, row :: _ => return [row]
      | _, rows =>
        match ending with
        | .error fault => throw fault
        | .ok true => return rows
        | .ok false => return rows ++ (← readListing isStream fuel)

/-- The listing of a captured payload: all its rows, or the only one. -/
def listPayload (payload : Bytes) (isStream : Bool) : Except Fault Json.Value := do
  let reader := FrameReader.ofResponse { payload } {} {}
  let (rows, _) := ((readListing isStream (payload.length + 1)).run.run reader).undisturbed
  let rows ← rows
  if isStream then
    return .ofMembers [("rows", .array rows)]
  else
    match rows with
    | row :: _ => return row
    | [] => throw (.parse "payload holds no record")

/-- A moment in a listing. -/
def listMoment (seconds : Int64) : Json.Value :=
  match Calendar.timestamp? seconds.toInt with
  | some text => .string text
  | none => .null

/-- The listing of a token: when it was issued, when it expires, and how long it is valid. There is
nothing if that cannot be counted. -/
def listToken (token : String) : Option (Except Fault Json.Value) :=
  match Credential.Claims.ofToken token with
  | .error fault => some (.error fault)
  | .ok claims => do
    let lifetime ← claims.lifetime?
    return .ok <| .ofMembers
      [("iat", .int claims.issuedAt.toInt), ("exp", .int claims.expiresAt.toInt),
        ("ttl_ms", .int lifetime.toNat), ("issued_at", listMoment claims.issuedAt),
        ("expires_at", listMoment claims.expiresAt)]

/-- The listing of a fault; what there is nothing to say of is left out. -/
def listFault (fault : Fault) : Json.Value :=
  let doubt := if fault.inDoubt then [("in_doubt", Json.Value.bool true)] else []
  let causes :=
    if fault.causes.isEmpty then []
    else [("causes", Json.Value.array (fault.causes.map .string))]
  .ofMembers [("error", .ofMembers <|
    [("kind", .string fault.kind.name), ("result_code", .int fault.code),
      ("message", .string (fault.message.getD "error"))] ++ doubt ++ causes)]

end RecordGateway.CommandLine
