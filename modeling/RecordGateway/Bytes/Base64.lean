import RecordGateway.Bytes.BigEndian

/-!
Base 64 text: three bytes as four symbols, the last group filled with `=`. Two alphabets share the
letters and digits and differ in the symbols for 62 and 63. Decoding is strict: the padding must be
exact, and the bits of the last symbol that belong to no byte must be zero, so each byte string has
one accepted spelling.
-/

namespace RecordGateway.Base64

/-- The two symbols in which the alphabets differ. -/
structure Alphabet where
  sixtyTwo : Char
  sixtyThree : Char

def Alphabet.standard : Alphabet := ⟨'+', '/'⟩

/-- The alphabet that needs no escape inside an address or a file name. -/
def Alphabet.urlSafe : Alphabet := ⟨'-', '_'⟩

/-- The symbol for a value below sixty-four. -/
def Alphabet.symbol (a : Alphabet) (n : Nat) : Char :=
  if n < 26 then Char.ofNat ('A'.toNat + n)
  else if n < 52 then Char.ofNat ('a'.toNat + (n - 26))
  else if n < 62 then Char.ofNat ('0'.toNat + (n - 52))
  else if n = 62 then a.sixtyTwo
  else a.sixtyThree

/-- The value of a symbol of the alphabet. -/
def Alphabet.value? (a : Alphabet) (c : Char) : Option Nat :=
  if 'A' ≤ c ∧ c ≤ 'Z' then some (c.toNat - 'A'.toNat)
  else if 'a' ≤ c ∧ c ≤ 'z' then some (c.toNat - 'a'.toNat + 26)
  else if '0' ≤ c ∧ c ≤ '9' then some (c.toNat - '0'.toNat + 52)
  else if c = a.sixtyTwo then some 62
  else if c = a.sixtyThree then some 63
  else none

/-- The padded symbols of a byte string. -/
def encodeChars (a : Alphabet) : Bytes → List Char
  | [] => []
  | [x] =>
    [a.symbol (x.toNat / 4), a.symbol (x.toNat % 4 * 16), '=', '=']
  | [x, y] =>
    [a.symbol (x.toNat / 4), a.symbol (x.toNat % 4 * 16 + y.toNat / 16),
      a.symbol (y.toNat % 16 * 4), '=']
  | x :: y :: z :: rest =>
    a.symbol (x.toNat / 4) :: a.symbol (x.toNat % 4 * 16 + y.toNat / 16)
      :: a.symbol (y.toNat % 16 * 4 + z.toNat / 64) :: a.symbol (z.toNat % 64)
      :: encodeChars a rest

/-- The padded text of a byte string. -/
def encode (a : Alphabet) (bytes : Bytes) : String :=
  String.ofList (encodeChars a bytes)

/-- The bytes of a last group that may be padded. -/
def decodeLast? (a : Alphabet) (c₀ c₁ c₂ c₃ : Char) : Option Bytes := do
  let v₀ ← a.value? c₀
  let v₁ ← a.value? c₁
  if c₂ = '=' then
    if c₃ = '=' ∧ v₁ % 16 = 0 then return [(v₀ * 4 + v₁ / 16).toUInt8] else none
  else
    let v₂ ← a.value? c₂
    let front := [(v₀ * 4 + v₁ / 16).toUInt8, (v₁ % 16 * 16 + v₂ / 4).toUInt8]
    if c₃ = '=' then
      if v₂ % 4 = 0 then return front else none
    else
      let v₃ ← a.value? c₃
      return front ++ [(v₂ % 4 * 64 + v₃).toUInt8]

/-- The bytes of groups of four symbols; only the last group may be padded. -/
def decodeChars? (a : Alphabet) : List Char → Option Bytes
  | [] => some []
  | [c₀, c₁, c₂, c₃] => decodeLast? a c₀ c₁ c₂ c₃
  | c₀ :: c₁ :: c₂ :: c₃ :: rest => do
    let v₀ ← a.value? c₀
    let v₁ ← a.value? c₁
    let v₂ ← a.value? c₂
    let v₃ ← a.value? c₃
    let rest ← decodeChars? a rest
    return (v₀ * 4 + v₁ / 16).toUInt8 :: (v₁ % 16 * 16 + v₂ / 4).toUInt8
      :: (v₂ % 4 * 64 + v₃).toUInt8 :: rest
  | _ => none

/-- The bytes that a padded text spells, if it spells any. -/
def decode? (a : Alphabet) (text : String) : Option Bytes :=
  decodeChars? a text.toList

end RecordGateway.Base64
