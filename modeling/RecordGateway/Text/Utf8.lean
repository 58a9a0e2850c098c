import RecordGateway.Bytes.BigEndian

/-!
Text as bytes. `String.utf8` and `Utf8.decode` are inverse to each other on well-formed bytes; for
the rest `Flaw` names the first place where the bytes stop being text.
-/

namespace RecordGateway

def utf8 (text : String) : Bytes :=
  text.toByteArray.data.toList

theorem length_utf8 (text : String) : (utf8 text).length = text.utf8ByteSize := by
  rw [utf8, Array.length_toList]
  rfl

theorem utf8_append (front back : String) : utf8 (front ++ back) = utf8 front ++ utf8 back := by
  simp [utf8]

/-- The bytes of a text are those of its characters, one after the other. -/
theorem utf8_ofList (chars : List Char) :
    utf8 (String.ofList chars) = chars.flatMap String.utf8EncodeChar := by
  simp [utf8, List.utf8Encode]

theorem mem_toDigits_bounds {n : Nat} {c : Char} (hc : c ∈ Nat.toDigits 10 n) :
    48 ≤ c.val.toNat ∧ c.val.toNat ≤ 57 := by
  have hdigit := Nat.isDigit_of_mem_toDigits (by decide) (by decide) hc
  simp only [Char.isDigit, Bool.and_eq_true, decide_eq_true_eq] at hdigit
  exact ⟨UInt32.le_iff_toNat_le.mp hdigit.1, UInt32.le_iff_toNat_le.mp hdigit.2⟩

/-- A digit takes a single byte. -/
theorem flatMap_utf8EncodeChar {digits : List Char} (h : ∀ c ∈ digits, c.val.toNat ≤ 57) :
    digits.flatMap String.utf8EncodeChar = digits.map fun c => c.val.toUInt8 := by
  rw [List.map_eq_flatMap, List.flatMap_def, List.flatMap_def]
  refine congrArg List.flatten (List.map_congr_left fun c hc => ?_)
  refine String.utf8EncodeChar_eq_singleton (Char.utf8Size_eq_one_iff.mpr ?_)
  exact UInt32.le_iff_toNat_le.mpr (Nat.le_trans (h c hc) (by decide))

/-- A number takes one byte for each of its digits. -/
theorem utf8_repr (n : Nat) :
    utf8 n.repr = (Nat.toDigits 10 n).map fun c => c.val.toUInt8 := by
  rw [Nat.repr_eq_ofList_toDigits, utf8_ofList]
  exact flatMap_utf8EncodeChar fun c hc => (mem_toDigits_bounds hc).2

namespace Utf8

/-- The first place where bytes stop being text: after `validUpTo` good bytes comes a sequence of
`length` bytes that no text contains, or, without a length, one that the end cuts short. -/
structure Flaw where
  validUpTo : Nat
  length : Option Nat
deriving DecidableEq, Repr

def Flaw.describe (flaw : Flaw) : String :=
  match flaw.length with
  | some length => s!"invalid utf-8 sequence of {length} bytes from index {flaw.validUpTo}"
  | none => s!"incomplete utf-8 byte sequence from index {flaw.validUpTo}"

/-- The ranges that the continuation bytes after a first byte have to lie in. -/
def continuations? (first : UInt8) : Option (List (UInt8 × UInt8)) :=
  let tail : UInt8 × UInt8 := (0x80, 0xBF)
  if first < 0x80 then some []
  else if first < 0xC2 then none
  else if first < 0xE0 then some [tail]
  else if first = 0xE0 then some [(0xA0, 0xBF), tail]
  else if first = 0xED then some [(0x80, 0x9F), tail]
  else if first < 0xF0 then some [tail, tail]
  else if first = 0xF0 then some [(0x90, 0xBF), tail, tail]
  else if first < 0xF4 then some [tail, tail, tail]
  else if first = 0xF4 then some [(0x80, 0x8F), tail, tail]
  else none

/-- Scans for the first flaw. `wanted` holds the ranges still due in the character being read, which
began at `start`; `position` is the index of the next byte. -/
def scan (start position : Nat) : List (UInt8 × UInt8) → Bytes → Option Flaw
  | [], [] => none
  | _ :: _, [] => some ⟨start, none⟩
  | [], byte :: rest =>
    match continuations? byte with
    | none => some ⟨position, some 1⟩
    | some wanted => scan position (position + 1) wanted rest
  | (low, high) :: wanted, byte :: rest =>
    if low ≤ byte ∧ byte ≤ high then scan start (position + 1) wanted rest
    else some ⟨start, some (position - start)⟩

/-- The first flaw of a byte string, if it is not text. -/
def flaw? (bytes : Bytes) : Option Flaw :=
  scan 0 0 [] bytes

/-- The text that the bytes spell, if they spell one. -/
def decode? (bytes : Bytes) : Option String :=
  String.fromUTF8? ⟨bytes.toArray⟩

theorem decode?_utf8 (text : String) : decode? (utf8 text) = some text := by
  have same : (⟨text.toByteArray.data.toList.toArray⟩ : ByteArray) = text.toByteArray := by simp
  rw [decode?, utf8, same]
  simp only [String.fromUTF8?, text.isValidUTF8, ↓reduceDIte]
  rfl

theorem utf8_of_decode? {bytes : Bytes} {text : String} (h : decode? bytes = some text) :
    utf8 text = bytes := by
  unfold decode? String.fromUTF8? at h
  split at h
  · obtain rfl := Option.some.inj h
    simp [utf8, String.fromUTF8]
  · cases h

end Utf8
end RecordGateway
