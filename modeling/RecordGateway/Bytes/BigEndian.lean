/-!
Numbers as bytes, the most significant byte first. `encode width n` writes `n` in exactly `width`
bytes and `decode` reads any number of bytes, so that `decode (encode width n) = n` below
`256 ^ width`.
-/

namespace RecordGateway

/-- A run of bytes as it travels, first byte first. -/
abbrev Bytes := List UInt8

namespace BigEndian

/-- The number that a run of bytes spells, the first byte being the most significant. -/
def decode (bytes : Bytes) : Nat :=
  bytes.foldl (fun acc byte => 256 * acc + byte.toNat) 0

/-- The lowest `width` bytes of `n`, most significant first. -/
def encode : Nat → Nat → Bytes
  | 0, _ => []
  | width + 1, n => encode width (n / 256) ++ [n.toUInt8]

theorem length_encode (width n : Nat) : (encode width n).length = width := by
  induction width generalizing n with
  | zero => rfl
  | succ width ih => simp [encode, ih]

end BigEndian
end RecordGateway
