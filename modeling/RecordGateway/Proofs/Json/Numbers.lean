import Mathlib.Algebra.Group.Nat.Defs
import Mathlib.Data.List.Basic
import RecordGateway.Json.Document
import RecordGateway.Json.Value
import RecordGateway.Proofs.Decimal.Shortest

/-!
Numbers as they stand in a document. A number is read from its digits, with or without a fraction and an
exponent, as long as what follows does not go on with it (`takeNumber_of_parts`). So an integer is read back
(`Numeral.standsIn_toString`), and a double as a shortest decimal that rounds to it (`told_floatText`).
-/

namespace RecordGateway.Json

open Decimal

/-! ### Digits -/

/-- The characters are decimal digits. -/
def AreDigits (chars : List Char) : Prop :=
  ∀ c ∈ chars, 48 ≤ c.val.toNat ∧ c.val.toNat ≤ 57

/-- The values of decimal digits. -/
def values (chars : List Char) : List Nat :=
  chars.map fun c => c.toNat - '0'.toNat

theorem areDigits_digitsOf (n : Nat) : AreDigits (digitsOf n) :=
  fun _ => mem_toDigits_bounds

theorem areDigits_zeros (count : Nat) : AreDigits (List.replicate count '0') := by
  intro c hc
  rw [List.eq_of_mem_replicate hc]
  decide

theorem areDigits_append {front back : List Char} :
    AreDigits (front ++ back) ↔ AreDigits front ∧ AreDigits back :=
  List.forall_mem_append

theorem AreDigits.mono {chars more : List Char} (h : AreDigits more) (hsub : chars ⊆ more) :
    AreDigits chars :=
  fun c hc => h c (hsub hc)

theorem digitsValue_concat (front : List Nat) (digit : Nat) :
    digitsValue (front ++ [digit]) = 10 * digitsValue front + digit := by
  rw [digitsValue, List.foldl_append]
  rfl

theorem digitsValue_append_zeros (front : List Nat) (count : Nat) :
    digitsValue (front ++ List.replicate count 0) = digitsValue front * 10 ^ count := by
  induction count with
  | zero => rw [List.replicate_zero, List.append_nil, Nat.pow_zero, Nat.mul_one]
  | succ count ih =>
      rw [List.replicate_succ', ← List.append_assoc, digitsValue_concat, ih, Nat.add_zero, Nat.mul_comm 10,
        Nat.mul_assoc, ← Nat.pow_succ]

theorem digitsValue_zeros_append (count : Nat) (back : List Nat) :
    digitsValue (List.replicate count 0 ++ back) = digitsValue back := by
  rw [digitsValue, List.foldl_append]
  refine congrArg (fun start => back.foldl _ start) ?_
  induction count with
  | zero => rfl
  | succ count ih =>
      rw [List.replicate_succ, List.foldl_cons]
      exact ih

theorem values_append (front back : List Char) : values (front ++ back) = values front ++ values back :=
  List.map_append

theorem values_zeros (count : Nat) : values (List.replicate count '0') = List.replicate count 0 :=
  List.map_replicate

theorem digitsValue_digitsOf (n : Nat) : digitsValue (values (digitsOf n)) = n := by
  rw [digitsValue, values, List.foldl_map]
  exact Nat.ofDigitChars_ten_toDigits

theorem AreDigits.flatMap_eq {chars : List Char} (h : AreDigits chars) :
    chars.flatMap String.utf8EncodeChar = chars.map fun c => c.val.toUInt8 :=
  flatMap_utf8EncodeChar fun c hc => (h c hc).2

theorem isDigit_of_bounds {c : Char} (h : 48 ≤ c.val.toNat ∧ c.val.toNat ≤ 57) :
    isDigit c.val.toUInt8 = true ∧ c.val.toUInt8.toNat = c.toNat := by
  have hbyte : c.val.toUInt8.toNat = c.val.toNat := by
    rw [UInt32.toNat_toUInt8]
    exact Nat.mod_eq_of_lt (by omega)
  rw [isDigit, Bool.and_eq_true, decide_eq_true_eq, decide_eq_true_eq, UInt8.le_iff_toNat_le,
    UInt8.le_iff_toNat_le, hbyte]
  exact ⟨h, rfl⟩

/-- Digits are taken up to what is no digit. -/
theorem takeDigits_eq {chars : List Char} (h : AreDigits chars) {rest : Bytes}
    (hrest : ∀ byte ∈ rest.head?, isDigit byte = false) :
    takeDigits (chars.flatMap String.utf8EncodeChar ++ rest) = (values chars, rest) := by
  rw [h.flatMap_eq]
  have hall : ∀ byte ∈ chars.map (fun c => c.val.toUInt8), isDigit byte = true := by
    rw [List.forall_mem_map]
    exact fun c hc => (isDigit_of_bounds (h c hc)).1
  have hstop : rest.takeWhile isDigit = [] ∧ rest.dropWhile isDigit = rest := by
    cases rest with
    | nil => exact ⟨rfl, rfl⟩
    | cons byte rest =>
        have hbyte := hrest byte rfl
        constructor
        · rw [List.takeWhile_cons, hbyte]
          rfl
        · rw [List.dropWhile_cons, hbyte]
          rfl
  have hvalues : (chars.map fun c => c.val.toUInt8).map (fun byte => byte.toNat - 0x30) = values chars := by
    rw [List.map_map]
    exact List.map_congr_left fun c hc => congrArg (· - 48) (isDigit_of_bounds (h c hc)).2
  rw [takeDigits, List.takeWhile_append_of_pos hall, List.dropWhile_append_of_pos hall, hstop.1,
    hstop.2, List.append_nil, hvalues]

/-- The digits of a number have no leading zero, unless it is zero. -/
def IsWhole (chars : List Char) : Prop :=
  ∃ first rest, values chars = first :: rest ∧ (first = 0 → rest = [])

theorem values_digitsOf_of_pos {n : Nat} (hn : 0 < n) :
    ∃ first rest, values (digitsOf n) = first :: rest ∧ first ≠ 0 := by
  induction n using Nat.strongRecOn with
  | ind n ih =>
      rw [digitsOf, Nat.toDigits_eq_if (by decide)]
      split
      · next hsmall =>
          refine ⟨_, [], rfl, ?_⟩
          have hvalue := Nat.toNat_digitChar_of_lt_ten hsmall
          have hzero : '0'.toNat = 48 := rfl
          dsimp only
          omega
      · next hlarge =>
          obtain ⟨first, rest, hfront, hfirst⟩ := ih (n / 10) (by omega) (by omega)
          rw [digitsOf, values] at hfront
          rw [values, List.map_append, hfront]
          exact ⟨first, _, rfl, hfirst⟩

theorem isWhole_digitsOf (n : Nat) : IsWhole (digitsOf n) := by
  rcases Nat.eq_zero_or_pos n with rfl | hn
  · exact ⟨0, [], rfl, fun _ => rfl⟩
  · obtain ⟨first, rest, hdigits, hfirst⟩ := values_digitsOf_of_pos hn
    exact ⟨first, rest, hdigits, fun hzero => absurd hzero hfirst⟩

/-! ### Parts of a number -/

/-- What follows a number does not go on with it. -/
structure EndsNumber (rest : Bytes) : Prop where
  not_digit : ∀ byte ∈ rest.head?, isDigit byte = false
  not_point : ∀ byte ∈ rest.head?, byte ≠ 0x2E
  not_exponent : ∀ byte ∈ rest.head?, byte ≠ 0x65 ∧ byte ≠ 0x45

theorem endsNumber_nil : EndsNumber [] := by
  constructor <;> simp

theorem takeFractionPart_none {rest : Bytes} (h : ∀ byte ∈ rest.head?, byte ≠ 0x2E) :
    takeFractionPart rest = some (none, rest) := by
  unfold takeFractionPart
  split
  · exact absurd rfl (h _ rfl)
  · rfl

theorem EndsNumber.takeExponentPart_eq {rest : Bytes} (h : EndsNumber rest) :
    takeExponentPart rest = some (none, rest) := by
  cases rest with
  | nil => rfl
  | cons byte rest =>
      obtain ⟨hlower, hupper⟩ := h.not_exponent byte rfl
      unfold takeExponentPart
      dsimp only
      rw [if_neg (by tauto)]

theorem takeFractionPart_point {chars : List Char} (h : AreDigits chars) (hsome : chars ≠ []) {rest : Bytes}
    (hrest : ∀ byte ∈ rest.head?, isDigit byte = false) :
    takeFractionPart (0x2E :: (chars.flatMap String.utf8EncodeChar ++ rest)) =
      some (some (values chars), rest) := by
  rw [takeFractionPart, takeDigits_eq h hrest]
  obtain ⟨first, chars, rfl⟩ := List.exists_cons_of_ne_nil hsome
  rfl

/-- An exponent as it is written: the letter, its sign and its digits. -/
def exponentBytes (n : Int) : Bytes :=
  0x65 :: (if n < 0 then 0x2D else 0x2B) :: (digitsOf n.natAbs).flatMap String.utf8EncodeChar

theorem takeExponentPart_exponentBytes (n : Int) {rest : Bytes}
    (hrest : ∀ byte ∈ rest.head?, isDigit byte = false) :
    takeExponentPart (exponentBytes n ++ rest) = some (some n, rest) := by
  have htaken := takeDigits_eq (areDigits_digitsOf n.natAbs) hrest
  obtain ⟨first, later, hvalues, -⟩ := isWhole_digitsOf n.natAbs
  have hvalue := digitsValue_digitsOf n.natAbs
  have hsigned : (if n < 0 then -(n.natAbs : Int) else n.natAbs) = n := by
    split <;> omega
  rw [hvalues] at hvalue htaken
  rw [exponentBytes, List.cons_append, List.cons_append]
  generalize n.natAbs = magnitude at htaken hvalue hsigned ⊢
  by_cases hn : n < 0
  · rw [if_pos hn] at hsigned
    simp [takeExponentPart, hn, htaken, hvalue, hsigned]
  · rw [if_neg hn] at hsigned
    simp [takeExponentPart, hn, htaken, hvalue, hsigned]

/-- An exponent goes on neither with the digits before it nor with a fraction. -/
theorem head_exponentBytes (n : Int) (rest : Bytes) : ∀ byte ∈ (exponentBytes n ++ rest).head?,
    isDigit byte = false ∧ byte ≠ 0x2E := by
  rintro _ ⟨⟩
  decide

/-- The minus sign of a negative number. -/
def sign (negative : Bool) : Bytes :=
  if negative then [0x2D] else []

/-- Where a number is expected its digits are no sign. -/
theorem head_digits {whole : List Char} (h : AreDigits whole) (hsome : whole ≠ []) (parts : Bytes) :
    ∃ first later, whole.flatMap String.utf8EncodeChar ++ parts = first :: later ∧ isDigit first = true := by
  obtain ⟨c, whole, rfl⟩ := List.exists_cons_of_ne_nil hsome
  have hfirst := (isDigit_of_bounds (h c List.mem_cons_self)).1
  rw [h.flatMap_eq]
  exact ⟨_, _, rfl, hfirst⟩

theorem takeNumber_of_parts (negative : Bool) {whole : List Char} (hdigits : AreDigits whole)
    (hwhole : IsWhole whole) {parts middle rest : Bytes} {fraction : Option (List Nat)} {exponent : Option Int}
    (hstop : ∀ byte ∈ parts.head?, isDigit byte = false)
    (hfraction : takeFractionPart parts = some (fraction, middle))
    (hexponent : takeExponentPart middle = some (exponent, rest)) :
    takeNumber (sign negative ++ (whole.flatMap String.utf8EncodeChar ++ parts)) =
      some (⟨negative, values whole, fraction, exponent⟩, rest) := by
  have htaken := takeDigits_eq hdigits hstop
  obtain ⟨first, later, hvalues, hleading⟩ := hwhole
  have hsome : whole ≠ [] := by
    rintro rfl
    cases hvalues
  obtain ⟨head, tail, hbytes, hhead⟩ := head_digits hdigits hsome parts
  have hsign : head ≠ 0x2D := by
    rintro rfl
    cases hhead
  rw [hvalues] at htaken
  rw [hbytes] at htaken ⊢
  by_cases hzero : first = 0
  · obtain rfl := hleading hzero
    cases negative <;> simp [sign, takeNumber, hsign, htaken, hvalues, hfraction, hexponent]
  · cases negative <;> simp [sign, takeNumber, hsign, htaken, hvalues, hzero, hfraction, hexponent]

/-! ### Integers -/

/-- The numeral in which an integer is written. -/
def Numeral.ofInt (n : Int) : Numeral :=
  ⟨decide (n < 0), values (digitsOf n.natAbs), none, none⟩

theorem Numeral.toInt?_ofInt (n : Int) : (Numeral.ofInt n).toInt? = some n := by
  simp only [Numeral.toInt?, Numeral.ofInt, digitsValue_digitsOf, decide_eq_true_eq]
  by_cases hn : n < 0
  · rw [if_pos hn, if_neg (by omega)]
    exact congrArg some (by omega)
  · rw [if_neg hn]
    exact congrArg some (by omega)

theorem utf8_toString_int (n : Int) :
    utf8 (toString n) = sign (decide (n < 0)) ++ (digitsOf n.natAbs).flatMap String.utf8EncodeChar := by
  cases n with
  | ofNat n =>
      show utf8 n.repr = _
      rw [Nat.repr_eq_ofList_toDigits, utf8_ofList]
      rfl
  | negSucc n =>
      have hminus : utf8 "-" = [0x2D] := by decide
      show utf8 ("-" ++ (n + 1).repr) = _
      rw [utf8_append, hminus, Nat.repr_eq_ofList_toDigits, utf8_ofList,
        decide_eq_true (Int.negSucc_lt_zero n)]
      rfl

/-- The numeral stands in the bytes: it is read from them, whatever follows that does not go on with it. -/
def Numeral.StandsIn (numeral : Numeral) (bytes : Bytes) : Prop :=
  ∀ rest, EndsNumber rest → takeNumber (bytes ++ rest) = some (numeral, rest)

theorem Numeral.standsIn_toString (n : Int) : (Numeral.ofInt n).StandsIn (utf8 (toString n)) := by
  intro rest hrest
  rw [utf8_toString_int, List.append_assoc]
  exact takeNumber_of_parts _ (areDigits_digitsOf _) (isWhole_digitsOf _) hrest.not_digit
    (takeFractionPart_none hrest.not_point) hrest.takeExponentPart_eq

/-! ### Doubles -/

/-- A numeral spells a decimal, perhaps with zeros behind its last digit. -/
def Numeral.Spells (numeral : Numeral) (decimal : Scaled) : Prop :=
  ∃ zeros : Nat,
    digitsValue (numeral.whole ++ numeral.fraction.getD []) = decimal.digits * 10 ^ zeros ∧
    numeral.exponent.getD 0 - (numeral.fraction.getD []).length = decimal.exponent - zeros

/-- A number is told by its sign and a shortest decimal; what is not finite is not told. -/
def Told (number : Number) (document : Document) : Prop :=
  match number with
  | .nan | .infinity _ => document = .null
  | .zero negative => document = .number ⟨negative, [0], some [0], none⟩
  | .finite negative magnitude =>
    ∃ numeral decimal, document = .number numeral ∧ numeral.negative = negative ∧
      magnitude.IsShortest decimal ∧ numeral.Spells decimal

/-- The digits up to the point and those behind it. -/
theorem takeNumber_point (negative : Bool) {whole fraction : List Char} (hdigits : AreDigits whole)
    (hfraction : AreDigits fraction) (hwhole : IsWhole whole) (hsome : fraction ≠ []) {middle rest : Bytes}
    {exponent : Option Int} (hstop : ∀ byte ∈ middle.head?, isDigit byte = false)
    (hexponent : takeExponentPart middle = some (exponent, rest)) :
    takeNumber (sign negative ++ ((whole ++ '.' :: fraction).flatMap String.utf8EncodeChar ++ middle)) =
      some (⟨negative, values whole, some (values fraction), exponent⟩, rest) := by
  rw [List.flatMap_append, List.append_assoc]
  exact takeNumber_of_parts negative hdigits hwhole (by rintro _ ⟨⟩; rfl)
    (takeFractionPart_point hfraction hsome hstop) hexponent

theorem isWhole_append {n : Nat} (hn : 0 < n) (back : List Char) : IsWhole (digitsOf n ++ back) := by
  obtain ⟨first, rest, hdigits, hfirst⟩ := values_digitsOf_of_pos hn
  refine ⟨first, rest ++ values back, ?_, fun hzero => absurd hzero hfirst⟩
  rw [values, List.map_append]
  exact congrArg (· ++ values back) hdigits

theorem isWhole_take {n : Nat} (hn : 0 < n) {count : Nat} (hcount : 0 < count) :
    IsWhole ((digitsOf n).take count) := by
  obtain ⟨first, rest, hdigits, hfirst⟩ := values_digitsOf_of_pos hn
  obtain ⟨count, rfl⟩ := Nat.exists_eq_add_one_of_ne_zero (Nat.ne_of_gt hcount)
  refine ⟨first, rest.take count, ?_, fun hzero => absurd hzero hfirst⟩
  rw [values, List.map_take]
  exact congrArg (List.take (count + 1)) hdigits

/-- A numeral with the given sign stands in the bytes and spells a decimal. -/
def Spelled (negative : Bool) (decimal : Scaled) (bytes : Bytes) : Prop :=
  ∃ numeral : Numeral, numeral.negative = negative ∧ numeral.Spells decimal ∧ numeral.StandsIn bytes

/-- The digits before the point and behind it, in which a decimal is written without an exponent. -/
structure Splits (decimal : Scaled) (whole fraction : List Char) : Prop where
  whole_digits : AreDigits whole
  fraction_digits : AreDigits fraction
  isWhole : IsWhole whole
  ne_nil : fraction ≠ []
  value_eq : ∃ zeros : Nat,
    digitsValue (values (whole ++ fraction)) = decimal.digits * 10 ^ zeros ∧
    -(fraction.length : Int) = decimal.exponent - zeros

theorem Splits.spelled {decimal : Scaled} {whole fraction : List Char} (h : Splits decimal whole fraction)
    (negative : Bool) :
    Spelled negative decimal
      (sign negative ++ (whole ++ '.' :: fraction).flatMap String.utf8EncodeChar) := by
  obtain ⟨zeros, hvalue, hplaces⟩ := h.value_eq
  rw [values_append] at hvalue
  refine ⟨⟨negative, values whole, some (values fraction), none⟩, rfl, ⟨zeros, hvalue, ?_⟩, fun rest hrest => ?_⟩
  · rw [← hplaces, Option.getD_some, Option.getD_none, values, List.length_map, Int.zero_sub]
  · rw [List.append_assoc]
    exact takeNumber_point negative h.whole_digits h.fraction_digits h.isWhole h.ne_nil hrest.not_digit
      hrest.takeExponentPart_eq

section Full

variable {decimal : Scaled}

/-- A whole number, with a zero behind the point. -/
theorem splits_whole (hpos : 0 < decimal.digits) (hscale : 0 ≤ decimal.exponent) :
    Splits decimal (digitsOf decimal.digits ++ List.replicate decimal.exponent.toNat '0') ['0'] where
  whole_digits := areDigits_append.mpr ⟨areDigits_digitsOf _, areDigits_zeros _⟩
  fraction_digits := areDigits_zeros 1
  isWhole := isWhole_append hpos _
  ne_nil := List.cons_ne_nil _ _
  value_eq := by
    refine ⟨decimal.exponent.toNat + 1, ?_, ?_⟩
    · rw [List.append_assoc, ← List.replicate_succ', values_append, values_zeros, digitsValue_append_zeros,
        digitsValue_digitsOf]
    · rw [List.length_singleton]
      omega

/-- The point stands among the digits. -/
theorem splits_among (hpos : 0 < decimal.digits) {count : Nat} (hcount : 0 < count)
    (hplaces : ((digitsOf decimal.digits).length : Int) + decimal.exponent = count)
    (hscale : decimal.exponent < 0) :
    Splits decimal ((digitsOf decimal.digits).take count) ((digitsOf decimal.digits).drop count) where
  whole_digits := (areDigits_digitsOf _).mono (List.take_subset _ _)
  fraction_digits := (areDigits_digitsOf _).mono (List.drop_subset _ _)
  isWhole := isWhole_take hpos hcount
  ne_nil := by
    rw [Ne, List.drop_eq_nil_iff]
    omega
  value_eq := by
    refine ⟨0, ?_, ?_⟩
    · rw [List.take_append_drop, digitsValue_digitsOf, pow_zero, Nat.mul_one]
    · rw [List.length_drop]
      omega

/-- The point stands before the digits. -/
theorem splits_before {count : Nat}
    (hplaces : ((digitsOf decimal.digits).length : Int) + decimal.exponent = -count) :
    Splits decimal ['0'] (List.replicate count '0' ++ digitsOf decimal.digits) where
  whole_digits := areDigits_zeros 1
  fraction_digits := areDigits_append.mpr ⟨areDigits_zeros _, areDigits_digitsOf _⟩
  isWhole := isWhole_digitsOf 0
  ne_nil := List.append_ne_nil_of_right_ne_nil _ Nat.toDigits_ne_nil
  value_eq := by
    refine ⟨0, ?_, ?_⟩
    · rw [← List.append_assoc, ← List.replicate_one, List.replicate_append_replicate, values_append,
        values_zeros, digitsValue_zeros_append, digitsValue_digitsOf, pow_zero, Nat.mul_one]
    · rw [List.length_append, List.length_replicate]
      omega

/-- A decimal written out in full. -/
theorem spelled_inFull (negative : Bool) (hpos : 0 < decimal.digits) :
    Spelled negative decimal (sign negative ++ (decimal.inFull true).flatMap String.utf8EncodeChar) := by
  rw [Scaled.inFull]
  by_cases hscale : 0 ≤ decimal.exponent
  · rw [if_pos hscale]
    exact (splits_whole hpos hscale).spelled negative
  rw [if_neg hscale]
  by_cases hwhole : 0 < ((digitsOf decimal.digits).length : Int) + decimal.exponent
  · rw [if_pos hwhole, List.append_assoc]
    exact (splits_among hpos (Int.lt_toNat.mpr hwhole) (Int.toNat_of_nonneg (Int.le_of_lt hwhole)).symm
      (Int.not_le.mp hscale)).spelled negative
  · rw [if_neg hwhole]
    exact (splits_before (by omega)).spelled negative

end Full

theorem flatMap_withExponent (mantissa : List Char) (magnitude : Int) :
    (mantissa ++ ['e'] ++ (if magnitude < 0 then ['-'] else if true then ['+'] else []) ++
      digitsOf magnitude.natAbs).flatMap String.utf8EncodeChar =
        mantissa.flatMap String.utf8EncodeChar ++ exponentBytes magnitude := by
  rw [exponentBytes]
  by_cases hnegative : magnitude < 0 <;>
    simp only [hnegative, if_true, if_false, List.flatMap_append, List.append_assoc] <;> rfl

/-- A decimal written with an exponent. The point stands behind its first digit, if there are others. -/
theorem spelled_withExponent (negative : Bool) {decimal : Scaled} {magnitude : Int}
    (hmagnitude : magnitude = (digitsOf decimal.digits).length + decimal.exponent - 1) :
    Spelled negative decimal
      (sign negative ++ (decimal.withExponent magnitude true).flatMap String.utf8EncodeChar) := by
  have hdigits := areDigits_digitsOf decimal.digits
  have hvalue := digitsValue_digitsOf decimal.digits
  have hwhole := isWhole_digitsOf decimal.digits
  rw [Scaled.withExponent, flatMap_withExponent]
  generalize digitsOf decimal.digits = chars at *
  rcases chars with _ | ⟨c, _ | ⟨d, more⟩⟩
  · obtain ⟨_, _, hnil, -⟩ := hwhole
    cases hnil
  · refine ⟨⟨negative, values [c], none, some magnitude⟩, rfl, ⟨0, ?_, ?_⟩, fun rest hrest => ?_⟩
    · show digitsValue (values [c] ++ []) = _
      rw [List.append_nil, hvalue, pow_zero, Nat.mul_one]
    · show magnitude - 0 = _
      rw [hmagnitude, List.length_singleton]
      omega
    · have hhead := head_exponentBytes magnitude rest
      rw [List.append_assoc, List.append_assoc]
      exact takeNumber_of_parts negative hdigits hwhole (fun byte hbyte => (hhead byte hbyte).1)
        (takeFractionPart_none fun byte hbyte => (hhead byte hbyte).2)
        (takeExponentPart_exponentBytes magnitude hrest.not_digit)
  · obtain ⟨hfirst, hmore⟩ := List.forall_mem_cons.mp hdigits
    refine ⟨⟨negative, values [c], some (values (d :: more)), some magnitude⟩, rfl, ⟨0, ?_, ?_⟩,
      fun rest hrest => ?_⟩
    · show digitsValue (values [c] ++ values (d :: more)) = _
      rw [← values_append, List.singleton_append, hvalue, pow_zero, Nat.mul_one]
    · show magnitude - (values (d :: more)).length = _
      rw [List.length_cons] at hmagnitude
      rw [hmagnitude, values, List.length_map]
      omega
    · have hhead := head_exponentBytes magnitude rest
      rw [List.append_assoc, List.append_assoc]
      exact takeNumber_point negative (List.forall_mem_singleton.mpr hfirst) hmore ⟨_, [], rfl, fun _ => rfl⟩
        (List.cons_ne_nil _ _) (fun byte hbyte => (hhead byte hbyte).1)
        (takeExponentPart_exponentBytes magnitude hrest.not_digit)

theorem spelled_magnitude (negative : Bool) {decimal : Scaled} (hpos : 0 < decimal.digits) :
    Spelled negative decimal
      (sign negative ++ (numberLayout.magnitude decimal).flatMap String.utf8EncodeChar) := by
  rw [Layout.magnitude]
  split
  · exact spelled_inFull negative hpos
  · exact spelled_withExponent negative rfl

theorem utf8_sign (negative : Bool) (text : String) :
    utf8 ((if negative then "-" else "") ++ text) = sign negative ++ utf8 text := by
  rw [utf8_append]
  cases negative <;> rfl

/-- A double is told by the number in its text, and what is not finite by the text that stands for no value. -/
theorem told_floatText (bits : UInt64) :
    (floatText bits = "null" ∧ Told (.ofBits bits) .null) ∨
      ∃ numeral : Numeral, Told (.ofBits bits) (.number numeral) ∧ numeral.StandsIn (utf8 (floatText bits)) := by
  rw [floatText]
  cases hnumber : Number.ofBits bits with
  | nan => exact .inl ⟨rfl, rfl⟩
  | infinity negative => exact .inl ⟨rfl, rfl⟩
  | zero negative =>
      refine .inr ⟨_, rfl, fun rest hrest => ?_⟩
      have hzero : utf8 "0.0" = (['0'] ++ '.' :: ['0']).flatMap String.utf8EncodeChar := by
        decide
      show takeNumber (utf8 (_ ++ "0.0") ++ rest) = _
      rw [utf8_sign, hzero, List.append_assoc]
      exact takeNumber_point negative (areDigits_zeros 1) (areDigits_zeros 1) (isWhole_digitsOf 0)
        (List.cons_ne_nil _ _) hrest.not_digit hrest.takeExponentPart_eq
  | finite negative magnitude =>
      have hshortest := Binary.isShortest_shortest hnumber .even
      have hpos := Binary.pos_of_covers (Number.bounds_of_ofBits hnumber).1 hshortest.covered
      obtain ⟨numeral, hsign, hspells, hstands⟩ := spelled_magnitude negative hpos
      refine .inr ⟨numeral, ⟨numeral, _, rfl, hsign, hshortest, hspells⟩, ?_⟩
      show numeral.StandsIn (utf8 (_ ++ String.ofList (numberLayout.magnitude (magnitude.shortest .even))))
      rw [utf8_sign, utf8_ofList]
      exact hstands

end RecordGateway.Json
