import RecordGateway.Credential.Claims
import RecordGateway.Decimal.Shortest
import RecordGateway.Policy

/-!
Access tokens and the moments that follow from their claims: when a token expires, counted from its
receipt, and when it is time to ask for the next one, after a given fraction of its lifetime.
-/

namespace RecordGateway.Credential

/-- A quotient rounded to the nearest whole number, and halfway to the even one. -/
def roundedDiv (num den : Nat) : Nat :=
  let below := num / den
  let rest := num % den
  if 2 * rest < den then below
  else if den < 2 * rest then below + 1
  else below + below % 2

/-- A floating-point number of seconds in whole nanoseconds. -/
def nanoseconds (seconds : Float) : Nat :=
  match Decimal.Number.ofBits seconds.toBits with
  | .finite false b =>
    roundedDiv (b.significand * Nat.pow 2 b.exponent.toNat * 1000000000)
      (Nat.pow 2 (-b.exponent).toNat)
  | _ => 0

/-- A token as it was received. -/
structure Token where
  text : String
  claims : Claims
  receivedAt : Time
  /-- For how many milliseconds it is valid. -/
  lifetime : UInt64
  /-- How long after its receipt the next token is asked for, in nanoseconds. -/
  renewAfter : Nat
  lifetime_eq : claims.lifetime? = some lifetime
deriving DecidableEq, Repr

namespace Token

/-- A token received now. If its lifetime cannot be counted there is neither a token nor a fault:
whoever receives it breaks down. The fraction is one that a configuration admits. -/
def receive (text : String) (now : Time) (fraction : Float) : Option (Except Fault Token) :=
  match Claims.ofToken text with
  | .error fault => some (.error fault)
  | .ok claims =>
    match lifetime_eq : claims.lifetime? with
    | none => none
    | some lifetime =>
      let span := lifetime.toNat
      let seconds := (span / 1000).toUInt64.toFloat + (span % 1000 * 1000000).toFloat / 1e9
      let renewAfter := nanoseconds (fraction * seconds)
      some (.ok { text, claims, receivedAt := now, lifetime, renewAfter, lifetime_eq })

def expiresAt (token : Token) : Time :=
  token.receivedAt + token.lifetime.toNat

def isExpired (token : Token) (now : Time) : Bool :=
  token.expiresAt ≤ now

/-- The first millisecond at which it is time for the next token. -/
def renewAt (token : Token) : Time :=
  token.receivedAt + (token.renewAfter + 999999) / 1000000

/-- What the token proves to the gateway. -/
def header (token : Token) : String :=
  "Bearer " ++ token.text

end Token
end RecordGateway.Credential
