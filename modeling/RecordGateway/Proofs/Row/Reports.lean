import Mathlib.Data.List.DropRight
import RecordGateway.Row.Outcome

/-!
What a failed script reports. Its text has the form `file:line:number:message` or it has not: a text is split
at its first three colons (`Udf.splitAtColon?_eq_some_iff`), and what stands between the second and the third is
a number if, without the blanks around it, it is one with a sign and zeros in front as the case may be
(`Udf.readCode?_eq_some_iff`). Texts of that form are read as what they say, and all others are kept as they
are (`Udf.reports_read_exactly`).
-/

namespace RecordGateway

/-! ### Blanks -/

/-- The second text is what is left of the first without the blanks at either end. -/
structure TrimsTo (text inner : List Char) : Prop where
  framed : ∃ before after, (∀ c ∈ before, isBlank c = true) ∧ (∀ c ∈ after, isBlank c = true) ∧
    text = before ++ (inner ++ after)
  head_visible : ∀ c ∈ inner.head?, isBlank c = false
  last_visible : ∀ c ∈ inner.getLast?, isBlank c = false

theorem dropWhile_blanks {before rest : List Char} (hbefore : ∀ c ∈ before, isBlank c = true)
    (hrest : ∀ c ∈ rest.head?, isBlank c = false) : (before ++ rest).dropWhile isBlank = rest := by
  rw [List.dropWhile_append_of_pos hbefore]
  cases rest with
  | nil => rfl
  | cons c rest => exact List.dropWhile_cons_of_neg (Bool.eq_false_iff.mp (hrest c rfl))

theorem TrimsTo.trimBlanks_eq {text inner : List Char} (h : TrimsTo text inner) :
    trimBlanks text = inner := by
  obtain ⟨before, after, hbefore, hafter, rfl⟩ := h.framed
  cases inner with
  | nil =>
      have hall : ∀ c ∈ before ++ after, isBlank c = true := List.forall_mem_append.mpr ⟨hbefore, hafter⟩
      have hnone : (before ++ after ++ []).dropWhile isBlank = [] := dropWhile_blanks hall nofun
      rw [List.append_nil] at hnone
      rw [trimBlanks, List.nil_append, hnone]
      rfl
  | cons c inner =>
      have hreversed : ∀ c ∈ after.reverse, isBlank c = true := fun c hc =>
        hafter c (List.mem_reverse.mp hc)
      have hlast : ∀ last ∈ (c :: inner).reverse.head?, isBlank last = false := by
        rw [List.head?_reverse]
        exact h.last_visible
      have hfirst : ∀ first ∈ ((c :: inner) ++ after).head?, isBlank first = false := h.head_visible
      rw [trimBlanks, dropWhile_blanks hbefore hfirst, List.reverse_append,
        dropWhile_blanks hreversed hlast, List.reverse_reverse]

theorem trimsTo_trimBlanks (text : List Char) : TrimsTo text (trimBlanks text) := by
  have htrim : trimBlanks text = (text.dropWhile isBlank).rdropWhile isBlank := rfl
  rw [htrim]
  refine ⟨⟨text.takeWhile isBlank, (text.dropWhile isBlank).rtakeWhile isBlank, ?_, ?_, ?_⟩, ?_, ?_⟩
  · exact fun c hc => List.mem_takeWhile_imp hc
  · exact fun c hc => List.mem_rtakeWhile_imp hc
  · rw [List.rdropWhile_append_rtakeWhile, List.takeWhile_append_dropWhile]
  · intro c hc
    -- What stands first after the blanks is no blank, and what is cut off behind leaves it there.
    have hfirst : c ∈ (text.dropWhile isBlank).head? := by
      obtain ⟨rest, hrest⟩ := List.rdropWhile_prefix isBlank (l := text.dropWhile isBlank)
      rw [← hrest, List.head?_append, hc]
      rfl
    have hstop := List.head?_dropWhile_not isBlank text
    rw [hfirst] at hstop
    exact hstop
  · intro c hc
    obtain ⟨hsome, rfl⟩ := List.mem_getLast?_eq_getLast hc
    exact Bool.eq_false_iff.mpr (List.rdropWhile_last_not isBlank (text.dropWhile isBlank) hsome)

theorem trimBlanks_eq_iff {text inner : List Char} : trimBlanks text = inner ↔ TrimsTo text inner := by
  constructor
  · rintro rfl
    exact trimsTo_trimBlanks text
  · exact TrimsTo.trimBlanks_eq

namespace Udf

/-! ### Numbers -/

/-- The decimal digits of a number, with any zeros in front. -/
def Spelled (n : Nat) (chars : List Char) : Prop :=
  ∃ zeros, chars = List.replicate zeros '0' ++ Nat.toDigits 10 n

/-- A decimal number: a sign, which a negative number needs, and digits. -/
inductive Written : Int → List Char → Prop where
  | plain {n : Nat} {digits : List Char} : Spelled n digits → Written n digits
  | plus {n : Nat} {digits : List Char} : Spelled n digits → Written n ('+' :: digits)
  | minus {n : Nat} {digits : List Char} : Spelled n digits → Written (-n) ('-' :: digits)

theorem Spelled.isDigit {n : Nat} {digits : List Char} (h : Spelled n digits) :
    ∀ c ∈ digits, c.isDigit = true := by
  obtain ⟨zeros, rfl⟩ := h
  intro c hc
  rcases List.mem_append.mp hc with hc | hc
  · rw [List.eq_of_mem_replicate hc]
    rfl
  · exact Nat.isDigit_of_mem_toDigits (by decide) (by decide) hc

theorem Spelled.ne_nil {n : Nat} {digits : List Char} (h : Spelled n digits) : digits ≠ [] := by
  obtain ⟨zeros, rfl⟩ := h
  exact List.append_ne_nil_of_right_ne_nil _ Nat.toDigits_ne_nil

theorem exists_digitChar {c : Char} (h : c.isDigit = true) : ∃ d < 10, c = Nat.digitChar d := by
  have hbounds : 48 ≤ c.toNat ∧ c.toNat ≤ 57 := by
    simpa [Char.isDigit, UInt32.le_iff_toNat_le] using h
  have hdigit : c.toNat - 48 < 10 := by omega
  refine ⟨c.toNat - 48, hdigit, Char.toNat_inj.mp ?_⟩
  rw [Nat.toNat_digitChar_of_lt_ten hdigit]
  omega

/-- Digits spell the number that they are the digits of. The induction is from the last digit on. -/
theorem spelled_ofDigitChars {digits : List Char} (hsome : digits ≠ [])
    (hdigits : ∀ c ∈ digits, c.isDigit = true) : Spelled (Nat.ofDigitChars 10 digits 0) digits := by
  induction digits using List.reverseRecOn with
  | nil => exact absurd rfl hsome
  | append_singleton front c ih =>
      rw [List.forall_mem_append, List.forall_mem_singleton] at hdigits
      obtain ⟨d, hd, rfl⟩ := exists_digitChar hdigits.2
      have hvalue : Nat.ofDigitChars 10 (front ++ [d.digitChar]) 0 =
          10 * Nat.ofDigitChars 10 front 0 + d := by
        rw [Nat.ofDigitChars, List.foldl_append]
        show 10 * Nat.ofDigitChars 10 front 0 + (d.digitChar.toNat - 48) = _
        rw [Nat.toNat_digitChar_of_lt_ten hd, Nat.add_sub_cancel_left]
      have hlast : Nat.toDigits 10 d = [d.digitChar] := Nat.toDigits_of_lt_base hd
      rw [hvalue]
      by_cases hfront : front = []
      · subst hfront
        refine ⟨0, ?_⟩
        show _ = Nat.toDigits 10 (10 * 0 + d)
        rw [Nat.mul_zero, Nat.zero_add, hlast]
        rfl
      obtain ⟨zeros, hzeros⟩ := ih hfront hdigits.1
      rcases Nat.eq_zero_or_pos (Nat.ofDigitChars 10 front 0) with hnone | hpos
      · refine ⟨zeros + 1, ?_⟩
        rw [hnone] at hzeros ⊢
        rw [Nat.mul_zero, Nat.zero_add, hlast, List.replicate_succ', hzeros]
        rfl
      · refine ⟨zeros, ?_⟩
        rw [← Nat.toDigits_append_toDigits (by decide) hpos hd, hlast, ← List.append_assoc, ← hzeros]

theorem Spelled.ofDigitChars_eq {n : Nat} {digits : List Char} (h : Spelled n digits) :
    Nat.ofDigitChars 10 digits 0 = n := by
  obtain ⟨zeros, rfl⟩ := h
  have hzeros : Nat.ofDigitChars 10 (List.replicate zeros '0') 0 = 0 := by
    induction zeros with
    | zero => rfl
    | succ zeros ih => exact ih
  rw [Nat.ofDigitChars, List.foldl_append]
  show Nat.ofDigitChars 10 (Nat.toDigits 10 n) (Nat.ofDigitChars 10 (List.replicate zeros '0') 0) = n
  rw [hzeros]
  exact Nat.ofDigitChars_ten_toDigits

theorem readDigits?_eq_some_iff {chars : List Char} {n : Nat} :
    readDigits? chars = some n ↔ Spelled n chars := by
  have hread : readDigits? chars =
      if chars = [] ∨ !chars.all Char.isDigit then none else some (Nat.ofDigitChars 10 chars 0) := rfl
  rw [hread]
  constructor
  · intro h
    split at h
    · cases h
    · next hall =>
        obtain rfl := Option.some.inj h
        simp only [not_or, Bool.not_eq_true', Bool.not_eq_false, List.all_eq_true] at hall
        exact spelled_ofDigitChars hall.1 hall.2
  · intro h
    rw [if_neg, h.ofDigitChars_eq]
    simpa using ⟨h.ne_nil, h.isDigit⟩

/-- A sign is no digit. -/
theorem not_spelled_cons {n : Nat} {c : Char} {chars : List Char} (hc : c.isDigit = false) :
    ¬ Spelled n (c :: chars) := by
  intro h
  rw [h.isDigit c List.mem_cons_self] at hc
  cases hc

theorem readCode?_eq_some_iff {chars : List Char} {value : Int} :
    readCode? chars = some value ↔
      Written value chars ∧ Int32.minValue.toInt ≤ value ∧ value ≤ Int32.maxValue.toInt := by
  have hbranch : ∀ (digits : List Char) (f : Int → Int), (do
      let given ← f <$> (do
        let n ← readDigits? digits
        pure (n : Int))
      if Int32.minValue.toInt ≤ given ∧ given ≤ Int32.maxValue.toInt then some given else none) =
        some value ↔
      (∃ n : Nat, Spelled n digits ∧ f n = value) ∧
        Int32.minValue.toInt ≤ value ∧ value ≤ Int32.maxValue.toInt := by
    intro digits f
    simp only [← readDigits?_eq_some_iff]
    cases readDigits? digits with
    | none => simp
    | some n =>
        simp only [Option.bind_eq_bind, Option.bind_some, Option.pure_def, Option.map_eq_map,
          Option.map_some, Option.ite_none_right_eq_some, Option.some.injEq, exists_eq_left']
        constructor
        · rintro ⟨hrange, rfl⟩
          exact ⟨rfl, hrange⟩
        · rintro ⟨rfl, hrange⟩
          exact ⟨hrange, rfl⟩
  unfold readCode?
  dsimp only
  split
  · rw [hbranch]
    refine and_congr_left fun _ => ⟨?_, fun h => ?_⟩
    · rintro ⟨n, hn, rfl⟩
      exact .minus hn
    · cases h with
      | plain hn => exact absurd hn (not_spelled_cons rfl)
      | minus hn => exact ⟨_, hn, rfl⟩
  · rw [hbranch]
    refine and_congr_left fun _ => ⟨?_, fun h => ?_⟩
    · rintro ⟨n, hn, rfl⟩
      exact .plus hn
    · cases h with
      | plain hn => exact absurd hn (not_spelled_cons rfl)
      | plus hn => exact ⟨_, hn, rfl⟩
  · next hminus hplus =>
      rw [hbranch]
      refine and_congr_left fun _ => ⟨?_, fun h => ?_⟩
      · rintro ⟨n, hn, rfl⟩
        exact .plain hn
      · cases h with
        | plain hn => exact ⟨_, hn, rfl⟩
        | plus => exact absurd rfl (hplus _)
        | minus => exact absurd rfl (hminus _)

theorem readCode?_eq_toInt_iff {chars : List Char} {code : Int32} :
    readCode? chars = some code.toInt ↔ Written code.toInt chars := by
  rw [readCode?_eq_some_iff]
  exact and_iff_left ⟨Int32.le_toInt code, Int.le_of_lt_add_one (Int32.toInt_lt code)⟩

/-! ### Colons -/

theorem splitAtColon?_eq_some_iff {chars before after : List Char} :
    splitAtColon? chars = some (before, after) ↔ ':' ∉ before ∧ chars = before ++ ':' :: after := by
  induction chars generalizing before with
  | nil => simp [splitAtColon?]
  | cons c chars ih =>
      rw [splitAtColon?]
      by_cases hc : c = ':'
      · rw [if_pos hc, hc]
        cases before with
        | nil => simp
        | cons first before =>
            simp only [Option.some.injEq, Prod.mk.injEq, List.nil_eq, reduceCtorEq, false_and, false_iff]
            rintro ⟨hopen, hchars⟩
            obtain ⟨rfl, -⟩ := List.cons.inj hchars
            exact hopen List.mem_cons_self
      · rw [if_neg hc, Option.map_eq_some_iff]
        constructor
        · rintro ⟨⟨front, rest⟩, hfront, hpair⟩
          obtain ⟨rfl, rfl⟩ := Prod.mk.inj hpair
          obtain ⟨hopen, rfl⟩ := ih.mp hfront
          exact ⟨List.not_mem_cons_of_ne_of_not_mem (Ne.symm hc) hopen, rfl⟩
        · rintro ⟨hopen, hchars⟩
          cases before with
          | nil => exact absurd (List.cons.inj hchars).1 hc
          | cons first before =>
              obtain ⟨rfl, rfl⟩ := List.cons.inj hchars
              exact ⟨(before, after), ih.mpr ⟨List.not_mem_of_not_mem_cons hopen, rfl⟩, rfl⟩

/-- A text of the form `file:line:number:message`, in which the third part is a number of thirty-two bits. -/
structure Report (text file line : List Char) (code : Int32) (message : List Char) : Prop where
  file_open : ':' ∉ file
  line_open : ':' ∉ line
  text_eq : ∃ number digits, ':' ∉ number ∧ TrimsTo number digits ∧ Written code.toInt digits ∧
    text = file ++ ':' :: (line ++ ':' :: (number ++ ':' :: message))

theorem splitReport?_eq_some_iff {text told : List Char} {value : Int} :
    splitReport? text = some (value, told) ↔
      ∃ file line code message, Report text file line code message ∧ value = code.toInt ∧
        told = file ++ [':'] ++ line ++ [' '] ++ trimBlanks message := by
  constructor
  · intro h
    unfold splitReport? at h
    obtain ⟨⟨file, afterFile⟩, hfile, h⟩ := Option.bind_eq_some_iff.mp h
    obtain ⟨⟨line, afterLine⟩, hline, h⟩ := Option.bind_eq_some_iff.mp h
    obtain ⟨⟨number, message⟩, hnumber, h⟩ := Option.bind_eq_some_iff.mp h
    obtain ⟨given, hcode, h⟩ := Option.bind_eq_some_iff.mp h
    obtain ⟨rfl, rfl⟩ := Prod.mk.inj (Option.some.inj h)
    obtain ⟨hfileOpen, rfl⟩ := splitAtColon?_eq_some_iff.mp hfile
    obtain ⟨hlineOpen, rfl⟩ := splitAtColon?_eq_some_iff.mp hline
    obtain ⟨hnumberOpen, rfl⟩ := splitAtColon?_eq_some_iff.mp hnumber
    obtain ⟨-, hleast, hgreatest⟩ := readCode?_eq_some_iff.mp hcode
    obtain ⟨code, rfl⟩ : ∃ code : Int32, code.toInt = given :=
      ⟨Int32.ofInt given, Int32.toInt_ofInt_of_le hleast (Int.lt_of_le_of_lt hgreatest (by decide))⟩
    exact ⟨file, line, code, message, ⟨hfileOpen, hlineOpen, number, _, hnumberOpen,
      trimsTo_trimBlanks number, readCode?_eq_toInt_iff.mp hcode, rfl⟩, rfl, rfl⟩
  · rintro ⟨file, line, code, message, ⟨hfile, hline, number, digits, hnumber, htrim, hdigits, rfl⟩,
      rfl, rfl⟩
    unfold splitReport?
    rw [splitAtColon?_eq_some_iff.mpr ⟨hfile, rfl⟩]
    simp only [Option.bind_eq_bind, Option.bind_some]
    rw [splitAtColon?_eq_some_iff.mpr ⟨hline, rfl⟩]
    simp only [Option.bind_some]
    rw [splitAtColon?_eq_some_iff.mpr ⟨hnumber, rfl⟩]
    simp only [Option.bind_some]
    rw [htrim.trimBlanks_eq, readCode?_eq_toInt_iff.mpr hdigits]
    rfl

/-! ### Reports -/

theorem isBlank_ne_colon {c : Char} (h : isBlank c = true) : c ≠ ':' := by
  rintro rfl
  cases h

theorem Written.colon_notMem {value : Int} {chars : List Char} (h : Written value chars) :
    ':' ∉ chars := by
  have hdigits : ∀ {n digits}, Spelled n digits → ':' ∉ digits := by
    intro n digits hspelled hmem
    cases hspelled.isDigit ':' hmem
  cases h with
  | plain hspelled => exact hdigits hspelled
  | plus hspelled => simpa using hdigits hspelled
  | minus hspelled => simpa using hdigits hspelled

/-- A number neither begins nor ends with a blank. -/
theorem Written.visible {value : Int} {chars : List Char} (h : Written value chars) :
    ∀ c ∈ chars, isBlank c = false := by
  have hdigits : ∀ {n digits}, Spelled n digits → ∀ c ∈ digits, isBlank c = false := by
    intro n digits hspelled c hc
    have hten : ∀ d < 10, isBlank d.digitChar = false := by decide
    obtain ⟨d, hd, rfl⟩ := exists_digitChar (hspelled.isDigit c hc)
    exact hten d hd
  cases h with
  | plain hspelled => exact hdigits hspelled
  | plus hspelled => exact List.forall_mem_cons.mpr ⟨rfl, hdigits hspelled⟩
  | minus hspelled => exact List.forall_mem_cons.mpr ⟨rfl, hdigits hspelled⟩

theorem readReport_of_report {text : String} {file line message told : List Char} {code : Int32}
    (h : Report text.toList file line code message) (htold : TrimsTo message told) :
    readReport text = (code.toInt, .ofList (file ++ ':' :: (line ++ ' ' :: told))) := by
  have hsplit := splitReport?_eq_some_iff.mpr ⟨file, line, code, message, h, rfl, rfl⟩
  rw [readReport, hsplit, htold.trimBlanks_eq]
  simp only [List.append_assoc, List.cons_append, List.nil_append]

/-- The number in its decimal form. -/
theorem written_toString (n : Int) : Written n (toString n).toList := by
  have hspelled : ∀ n : Nat, Spelled n (Nat.toDigits 10 n) := fun n => ⟨0, rfl⟩
  cases n with
  | ofNat n =>
      have hchars : (toString (Int.ofNat n)).toList = Nat.toDigits 10 n := String.toList_ofList
      rw [hchars]
      exact .plain (hspelled n)
  | negSucc n =>
      have hchars : (toString (Int.negSucc n)).toList = '-' :: Nat.toDigits 10 (n + 1) := by
        show ("-" ++ Nat.repr (n + 1)).toList = _
        rw [String.toList_append, Nat.repr_eq_ofList_toDigits, String.toList_ofList (l := Nat.toDigits 10 _)]
        rfl
      rw [hchars]
      exact .minus (hspelled (n + 1))

/-- A text of the form `file:line:number:message`, with any blanks around the number, is read as the number and
as what the other parts say; a text of no such form has no number of its own, and is kept as it is. -/
theorem reports_read_exactly :
    (∀ (file line before digits after message : String) (code : Int32),
      ':' ∉ file.toList → ':' ∉ line.toList → (∀ c ∈ before.toList, isBlank c = true) →
      (∀ c ∈ after.toList, isBlank c = true) → Written code.toInt digits.toList →
      ∃ told : String, TrimsTo message.toList told.toList ∧
        readReport (file ++ ":" ++ line ++ ":" ++ before ++ digits ++ after ++ ":" ++ message) =
          (code.toInt, file ++ ":" ++ line ++ " " ++ told)) ∧
    (∀ code : Int32, Written code.toInt (toString code.toInt).toList) ∧
    ∀ text : String, (∀ file line code message, ¬ Report text.toList file line code message) →
      readReport text = (.udfBadResponse, text) := by
  refine ⟨?_, fun code => written_toString code.toInt, fun text hform => ?_⟩
  · intro file line before digits after message code hfile hline hbefore hafter hdigits
    have htrim : TrimsTo (before.toList ++ (digits.toList ++ after.toList)) digits.toList :=
      ⟨⟨_, _, hbefore, hafter, rfl⟩, fun c hc => hdigits.visible c (List.mem_of_mem_head? hc),
        fun c hc => hdigits.visible c (List.mem_of_mem_getLast? hc)⟩
    have hcolon : ':' ∉ before.toList ++ (digits.toList ++ after.toList) := by
      simp only [List.mem_append, not_or]
      exact ⟨fun h => isBlank_ne_colon (hbefore _ h) rfl, hdigits.colon_notMem,
        fun h => isBlank_ne_colon (hafter _ h) rfl⟩
    have hreport : Report
        (file ++ ":" ++ line ++ ":" ++ before ++ digits ++ after ++ ":" ++ message).toList
        file.toList line.toList code message.toList := by
      refine ⟨hfile, hline, _, digits.toList, hcolon, htrim, hdigits, ?_⟩
      simp [String.toList_append]
    have htold := trimsTo_trimBlanks message.toList
    refine ⟨.ofList (trimBlanks message.toList), by rwa [String.toList_ofList], ?_⟩
    rw [readReport_of_report hreport htold]
    refine congrArg (Prod.mk _) (String.toList_inj.mp ?_)
    simp [String.toList_append]
  · rw [readReport]
    cases hsplit : splitReport? text.toList with
    | none => rfl
    | some found =>
        obtain ⟨file, line, code, message, hreport, -⟩ := splitReport?_eq_some_iff.mp hsplit
        exact absurd hreport (hform file line code message)

/-- Blanks beyond ASCII, a sign, zeros and a colon in the message; and a number that does not fit. -/
theorem reports_read_negative :
    readReport "f.lua:1:\u2003-0042 : no: way " = (-42, "f.lua:1 no: way") ∧
      readReport "f.lua:1:2147483648:no" = (.udfBadResponse, "f.lua:1:2147483648:no") := by
  obtain ⟨hread, -, hkept⟩ := reports_read_exactly
  have hnumber : Written (-42) ('-' :: ['0', '0', '4', '2']) := .minus (n := 42) ⟨2, by decide⟩
  constructor
  · have hbefore : ∀ c ∈ "\u2003".toList, isBlank c = true := List.all_eq_true.mp (by decide)
    have hafter : ∀ c ∈ " ".toList, isBlank c = true := List.all_eq_true.mp (by decide)
    obtain ⟨told, htold, hreport⟩ := hread "f.lua" "1" "\u2003" "-0042" " " " no: way " (-42) (by decide)
      (by decide) hbefore hafter hnumber
    have hinner : trimBlanks " no: way ".toList = "no: way".toList := by decide
    obtain rfl : told = "no: way" := String.toList_inj.mp (htold.trimBlanks_eq.symm.trans hinner)
    exact hreport
  · refine hkept _ fun file line code message hreport => ?_
    have hnone : splitReport? "f.lua:1:2147483648:no".toList = none := by decide
    rw [splitReport?_eq_some_iff.mpr ⟨file, line, code, message, hreport, rfl, rfl⟩] at hnone
    cases hnone

end Udf
end RecordGateway
