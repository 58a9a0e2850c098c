import RecordGateway.Json.Document
import RecordGateway.Json.Value

/-!
Strings as they stand in a document. A character is written as it is or as an escape; either way it is read in
steps of its own, whatever follows (`exists_reads`), so a text between its quotes is read back
(`takeString_quote`).
-/

namespace RecordGateway.Json

/-- The bytes in which a character stands in a string. -/
def spelling (c : Char) : Bytes :=
  (escapeChar c).flatMap String.utf8EncodeChar

theorem utf8_toString (c : Char) : utf8 c.toString = String.utf8EncodeChar c := by
  rw [← List.flatMap_singleton String.utf8EncodeChar, ← utf8_ofList]
  rfl

theorem utf8_eq_flatMap (text : String) : utf8 text = text.toList.flatMap String.utf8EncodeChar := by
  rw [← utf8_ofList, String.ofList_toList]

/-- Between the quotes stand the characters, one after the other. -/
theorem utf8_quote (text : String) :
    utf8 (quote text) = 0x22 :: (text.toList.flatMap spelling ++ [0x22]) := by
  rw [quote, utf8_ofList, List.flatMap_append, List.flatMap_append, List.flatMap_assoc]
  rfl

/-! ### Characters -/

/-- A byte that stands for itself in a string. -/
def IsPlain (byte : UInt8) : Prop :=
  byte ≠ 0x22 ∧ byte ≠ 0x5C ∧ ¬ byte < 0x20

/-- Bytes are read as pieces, one in each step, and joined the pieces are the bytes of a character. -/
structure Reads (bytes : Bytes) (c : Char) (pieces : List Piece) : Prop where
  take_eq : ∀ fuel rest, takePieces (fuel + pieces.length) (bytes ++ rest) =
    (takePieces fuel rest).map fun (more, rest) => (pieces ++ more, rest)
  join_eq : ∀ more, joinPieces? (pieces ++ more) =
    (joinPieces? more).map (String.utf8EncodeChar c ++ ·)
  length_le : pieces.length ≤ bytes.length

theorem takePieces_plain {bytes : Bytes} (h : ∀ byte ∈ bytes, IsPlain byte) (fuel : Nat) (rest : Bytes) :
    takePieces (fuel + bytes.length) (bytes ++ rest) =
      (takePieces fuel rest).map fun (more, rest) => (bytes.map .byte ++ more, rest) := by
  induction bytes with
  | nil => simp
  | cons byte bytes ih =>
      rw [List.forall_mem_cons] at h
      obtain ⟨⟨hquote, hescape, hprinted⟩, hbytes⟩ := h
      rw [List.length_cons, ← Nat.add_assoc, List.cons_append]
      rcases htaken : takePieces fuel rest with _ | ⟨more, later⟩ <;>
        simp [takePieces, hescape, hprinted, ih hbytes, htaken]

theorem joinPieces?_bytes (bytes : Bytes) (more : List Piece) :
    joinPieces? (bytes.map .byte ++ more) = (joinPieces? more).map (bytes ++ ·) := by
  induction bytes with
  | nil => simp
  | cons byte bytes ih =>
      rw [List.map_cons, List.cons_append, joinPieces?, ih, Option.map_map]
      rfl

/-- What is no half of a character is one by itself. -/
theorem joinPieces?_unit {unit : Nat} (hunit : unit < 0xD800) (more : List Piece) :
    joinPieces? (.unit unit :: more) =
      (joinPieces? more).map (utf8 (Char.ofNat unit).toString ++ ·) := by
  have hhigh : ¬ (0xD800 ≤ unit ∧ unit < 0xDC00) := by omega
  have hlow : ¬ (0xDC00 ≤ unit ∧ unit < 0xE000) := by omega
  have hhalf : ¬ (0xD800 ≤ unit ∧ unit < 0xE000) := by omega
  rcases more with _ | ⟨byte | low, more⟩ <;> simp only [joinPieces?, if_neg hhigh, if_neg hlow, if_neg hhalf]

theorem reads_plain {c : Char} (h : ∀ byte ∈ String.utf8EncodeChar c, IsPlain byte) :
    Reads (String.utf8EncodeChar c) c ((String.utf8EncodeChar c).map .byte) where
  take_eq fuel rest := by
    rw [List.length_map]
    exact takePieces_plain h fuel rest
  join_eq := joinPieces?_bytes _
  length_le := Nat.le_of_eq (List.length_map ..)

/-- A byte of a character that needs no escape stands for itself. -/
theorem isPlain_of_mem {c : Char} (hprinted : ¬ c.toNat < 0x20) (hquote : c.toNat ≠ 0x22)
    (hescape : c.toNat ≠ 0x5C) : ∀ byte ∈ String.utf8EncodeChar c, IsPlain byte := by
  intro byte hbyte
  have hbound : 0x20 ≤ byte.toNat ∧ byte.toNat ≠ 0x22 ∧ byte.toNat ≠ 0x5C := by
    have htoNat (n : Nat) : (UInt8.ofNat n).toNat = n % 256 := UInt8.toNat_ofNat'
    rw [Char.toNat] at hprinted hquote hescape
    unfold String.utf8EncodeChar at hbyte
    grind
  refine ⟨?_, ?_, ?_⟩
  · rintro rfl
    exact hbound.2.1 rfl
  · rintro rfl
    exact hbound.2.2 rfl
  · rw [UInt8.not_lt, UInt8.le_iff_toNat_le]
    exact hbound.1

/-- An escape of one letter. -/
theorem reads_letter {letter byte : UInt8} {c : Char} (hbyte : escapedByte? letter = some byte)
    (hc : String.utf8EncodeChar c = [byte]) : Reads [0x5C, letter] c [.byte byte] where
  take_eq fuel rest := by
    have hletter : letter ≠ 0x75 := by
      rintro rfl
      cases hbyte
    rcases htaken : takePieces fuel rest with _ | ⟨more, later⟩ <;>
      simp [takePieces, hbyte, htaken]
  join_eq more := by
    rw [hc]
    rfl
  length_le := Nat.le_succ 1

/-- The digits of a control character are read as its number. -/
theorem hexDigits_of_control : ∀ n < 0x20,
    let high := (Hex.digit (n / 16)).val.toUInt8
    let low := (Hex.digit (n % 16)).val.toUInt8
    (['\\', 'u', '0', '0'] ++ Hex.ofByte n.toUInt8).flatMap String.utf8EncodeChar =
        [0x5C, 0x75, 0x30, 0x30, high, low] ∧
      takeHex4 [0x30, 0x30, high, low] = some (n, []) := by
  decide

theorem takeHex4_append {a b c d : UInt8} {unit : Nat} (h : takeHex4 [a, b, c, d] = some (unit, []))
    (rest : Bytes) : takeHex4 (a :: b :: c :: d :: rest) = some (unit, rest) := by
  simp only [takeHex4, Option.bind_eq_bind, Option.bind_eq_some_iff, Option.pure_def, Option.some.injEq,
    Prod.mk.injEq, and_true] at h ⊢
  exact h

/-- An escape in hexadecimal digits, in which the other control characters stand. -/
theorem reads_unit {c : Char} (hc : c.toNat < 0x20) :
    Reads ((['\\', 'u', '0', '0'] ++ Hex.ofByte c.toNat.toUInt8).flatMap String.utf8EncodeChar) c
      [.unit c.toNat] := by
  obtain ⟨hbytes, hdigits⟩ := hexDigits_of_control c.toNat hc
  rw [hbytes]
  generalize (Hex.digit (c.toNat / 16)).val.toUInt8 = high at hdigits
  generalize (Hex.digit (c.toNat % 16)).val.toUInt8 = low at hdigits
  constructor
  · intro fuel rest
    have htaken := takeHex4_append hdigits rest
    rcases hmore : takePieces fuel rest with _ | ⟨more, later⟩ <;>
      simp [takePieces, htaken, hmore]
  · intro more
    rw [List.singleton_append, joinPieces?_unit (Nat.lt_trans hc (by decide)), Char.ofNat_toNat, utf8_toString]
  · exact Nat.le_add_left 1 5

theorem exists_reads (c : Char) : ∃ pieces, Reads (spelling c) c pieces := by
  unfold spelling escapeChar
  split
  · exact ⟨_, reads_letter rfl rfl⟩
  · exact ⟨_, reads_letter rfl rfl⟩
  · exact ⟨_, reads_letter rfl rfl⟩
  · exact ⟨_, reads_letter rfl rfl⟩
  · exact ⟨_, reads_letter rfl rfl⟩
  · exact ⟨_, reads_letter rfl rfl⟩
  · exact ⟨_, reads_letter rfl rfl⟩
  · next hquote hescape _ _ _ _ _ =>
      split
      · next hcontrol => exact ⟨_, reads_unit hcontrol⟩
      · next hprinted =>
          rw [List.flatMap_singleton]
          exact ⟨_, reads_plain (isPlain_of_mem hprinted (fun h => hquote (Char.toNat_inj.mp h))
            fun h => hescape (Char.toNat_inj.mp h))⟩

/-! ### Texts -/

theorem takePieces_spelled (chars : List Char) :
    ∃ pieces, joinPieces? pieces = some (chars.flatMap String.utf8EncodeChar) ∧
      pieces.length ≤ (chars.flatMap spelling).length ∧
      ∀ fuel rest, takePieces (fuel + 1 + pieces.length) (chars.flatMap spelling ++ 0x22 :: rest) =
        some (pieces, rest) := by
  induction chars with
  | nil => exact ⟨[], rfl, Nat.le_refl _, fun _ _ => rfl⟩
  | cons c chars ih =>
      obtain ⟨pieces, hreads⟩ := exists_reads c
      obtain ⟨later, hjoined, hlength, htaken⟩ := ih
      refine ⟨pieces ++ later, ?_, ?_, fun fuel rest => ?_⟩
      · rw [hreads.join_eq, hjoined]
        rfl
      · rw [List.flatMap_cons, List.length_append, List.length_append]
        exact Nat.add_le_add hreads.length_le hlength
      · rw [List.flatMap_cons, List.append_assoc, List.length_append, Nat.add_comm pieces.length,
          ← Nat.add_assoc, hreads.take_eq, htaken]
        rfl

/-- A text is read back from between its quotes. -/
theorem takeString_quote (text : String) (rest : Bytes) :
    takeString (text.toList.flatMap spelling ++ 0x22 :: rest) = some (some text, rest) := by
  obtain ⟨pieces, hjoined, hlength, htaken⟩ := takePieces_spelled text.toList
  have hfuel : (text.toList.flatMap spelling ++ 0x22 :: rest).length + 1 =
      (text.toList.flatMap spelling).length - pieces.length + rest.length + 1 + 1 + pieces.length := by
    rw [List.length_append, List.length_cons]
    omega
  rw [takeString, hfuel, htaken]
  simp [hjoined, ← utf8_eq_flatMap, Utf8.decode?_utf8]

end RecordGateway.Json
