import RecordGateway.Bytes.Base64
import RecordGateway.Fault
import RecordGateway.Json.Document

/-!
Claims: from when and until when an access token is valid, in seconds. They stand in the second of
the segments into which dots divide a token, as a document in base 64 whose padding may be left out.
-/

namespace RecordGateway.Credential

/-- When a token was issued and when it expires. -/
structure Claims where
  issuedAt : Int64
  expiresAt : Int64
deriving DecidableEq, Repr

/-- The characters after the first dot and before the second; `none` if there is no dot. -/
def secondSegment? (token : List Char) : Option (List Char) :=
  match token.dropWhile (· ≠ '.') with
  | [] => none
  | _ :: rest => some (rest.takeWhile (· ≠ '.'))

/-- The number of bytes of the characters. -/
def byteLength (chars : List Char) : Nat :=
  chars.foldr (fun c total => c.utf8Size + total) 0

/-- Fills a segment up to a whole number of groups of four. -/
def pad (segment : List Char) : List Char :=
  segment ++ List.replicate ((4 - byteLength segment % 4) % 4) '='

/-- A whole number in sixty-four bits with a sign, if they hold it. -/
def toInt64? (n : Int) : Option Int64 :=
  if Int64.minValue.toInt ≤ n ∧ n ≤ Int64.maxValue.toInt then some (Int64.ofInt n) else none

def readInt64? (document : Json.Document) : Option Int64 :=
  (document.asIntWithin? Int64.minValue.toInt Int64.maxValue.toInt).map Int64.ofInt

namespace Claims

/-- The claims that a document states. -/
def ofDocument? (document : Json.Document) : Option Claims := do
  match ← document.fields? ["iat", "exp"] with
  | [some issuedAt, some expiresAt] => return ⟨← readInt64? issuedAt, ← readInt64? expiresAt⟩
  | _ => none

/-- Refuses claims of a token that is never valid. -/
def check (claims : Claims) : Except Fault Claims :=
  if claims.issuedAt < claims.expiresAt then .ok claims
  else
    .error <| .parse <| s!"access token issued at {claims.issuedAt.toInt} does not precede "
      ++ s!"expiry {claims.expiresAt.toInt}"

def ofToken (token : String) : Except Fault Claims := do
  let some segment := secondSegment? token.toList
    | throw (.parse "access token has no claims segment")
  let some bytes := Base64.decodeChars? .urlSafe (pad segment)
    | throw (.parse "access token claims are not base64url" ["invalid base64url text"])
  let some claims := Json.Document.read? bytes >>= ofDocument?
    | throw (.parse "access token claims are not valid json" ["invalid json document"])
  claims.check

/-- For how many milliseconds a token is valid. The seconds and then the milliseconds are counted in
sixty-four bits with a sign. Where these do not hold them there is no lifetime, and whoever counts it
breaks down. -/
def lifetime? (claims : Claims) : Option UInt64 := do
  let seconds ← toInt64? (claims.expiresAt.toInt - claims.issuedAt.toInt)
  let milliseconds ← toInt64? (seconds.toInt * 1000)
  return milliseconds.toUInt64

end Claims
end RecordGateway.Credential
