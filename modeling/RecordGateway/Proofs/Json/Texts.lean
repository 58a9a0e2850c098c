import Mathlib.Data.List.Forall2
import RecordGateway.Proofs.Json.Numbers
import RecordGateway.Proofs.Json.Strings

/-!
Texts of values, read back. Each part of a text is read from its own bytes, whatever follows it that does not
go on with a number (`ReadFrom`): a value without parts, the items of an array, the members of an object. Both
forms of a text are put together from such parts, the one on a line (`Value.renders_compact`) and the one over
several lines (`Value.renders_indented`). So a text is read as a document that tells its value
(`read?_compact`, `read?_pretty`).
-/

namespace RecordGateway.Json

/-! ### Documents of values -/

mutual

/-- The document says what the value is. -/
inductive Tells : Value → Document → Prop
  | null : Tells .null .null
  | bool (value : Bool) : Tells (.bool value) (.bool value)
  | int (value : Int) : Tells (.int value) (.number (.ofInt value))
  | float {bits : UInt64} {document : Document} (told : Told (.ofBits bits) document) :
    Tells (.float bits) document
  | string (text : String) : Tells (.string text) (.string (some text))
  | array {items : List Value} {documents : List Document} (told : List.Forall₂ Tells items documents) :
    Tells (.array items) (.array documents)
  | object {members : List (String × Value)} {fields : List (Option String × Document)}
    (told : TellsMembers members fields) : Tells (.object members) (.object fields)

/-- The fields say what the members are, in the same order. -/
inductive TellsMembers : List (String × Value) → List (Option String × Document) → Prop
  | nil : TellsMembers [] []
  | cons {name : String} {value : Value} {document : Document} {members : List (String × Value)}
    {fields : List (Option String × Document)} (first : Tells value document)
    (later : TellsMembers members fields) :
    TellsMembers ((name, value) :: members) ((some name, document) :: fields)

end

/-! ### Blanks -/

def IsBlank (byte : UInt8) : Prop :=
  byte = 0x20 ∨ byte = 0x0A ∨ byte = 0x0D ∨ byte = 0x09

instance : DecidablePred IsBlank :=
  fun byte => inferInstanceAs (Decidable (byte = 0x20 ∨ byte = 0x0A ∨ byte = 0x0D ∨ byte = 0x09))

theorem skipBlanks_cons (byte : UInt8) (rest : Bytes) :
    skipBlanks (byte :: rest) = if IsBlank byte then skipBlanks rest else byte :: rest :=
  rfl

def AreBlanks (bytes : Bytes) : Prop :=
  ∀ byte ∈ bytes, IsBlank byte

theorem areBlanks_nil : AreBlanks [] :=
  List.forall_mem_nil _

theorem areBlanks_singleton {byte : UInt8} (h : IsBlank byte) : AreBlanks [byte] :=
  List.forall_mem_singleton.mpr h

section Blanks

variable {blanks : Bytes}

theorem skipBlanks_append (hblanks : AreBlanks blanks) (rest : Bytes) :
    skipBlanks (blanks ++ rest) = skipBlanks rest := by
  induction blanks with
  | nil => rfl
  | cons byte blanks ih =>
      rw [AreBlanks, List.forall_mem_cons] at hblanks
      rw [List.cons_append, skipBlanks_cons, if_pos hblanks.1]
      exact ih hblanks.2

theorem takeDocument_blanks (hblanks : AreBlanks blanks) (fuel : Nat) (rest : Bytes) :
    takeDocument fuel (blanks ++ rest) = takeDocument fuel rest := by
  cases fuel with
  | zero => rfl
  | succ fuel => rw [takeDocument, takeDocument, skipBlanks_append hblanks]

theorem takeItems_blanks (hblanks : AreBlanks blanks) (fuel : Nat) (rest : Bytes) :
    takeItems fuel (blanks ++ rest) = takeItems fuel rest := by
  cases fuel with
  | zero => rfl
  | succ fuel => rw [takeItems, takeItems, takeDocument_blanks hblanks]

theorem takeMembers_blanks (hblanks : AreBlanks blanks) (fuel : Nat) (rest : Bytes) :
    takeMembers fuel (blanks ++ rest) = takeMembers fuel rest := by
  cases fuel with
  | zero => rfl
  | succ fuel => rw [takeMembers, takeMembers, skipBlanks_append hblanks]

/-- A blank ends a number, as does whatever stands behind a value in an array or an object. -/
theorem endsNumber_cons {byte : UInt8} (hbyte : IsBlank byte ∨ byte = 0x2C ∨ byte = 0x5D ∨ byte = 0x7D)
    (rest : Bytes) : EndsNumber (byte :: rest) := by
  rcases hbyte with (rfl | rfl | rfl | rfl) | rfl | rfl | rfl <;> constructor <;> simp [isDigit]

theorem endsNumber_blanks (hblanks : AreBlanks blanks) {rest : Bytes} (hrest : EndsNumber rest) :
    EndsNumber (blanks ++ rest) := by
  cases blanks with
  | nil => exact hrest
  | cons byte blanks => exact endsNumber_cons (.inl (hblanks byte List.mem_cons_self)) _

end Blanks

/-! ### Parts -/

/-- The bytes begin with what is no blank and ends neither an array nor an object. -/
def Begins (bytes : Bytes) : Prop :=
  ∃ first later, bytes = first :: later ∧ ¬ IsBlank first ∧ first ≠ 0x5D ∧ first ≠ 0x7D

/-- A reader takes its result from the bytes, whatever follows that does not go on with a number. Two steps
for each byte are enough. -/
structure ReadFrom {α : Type} (take : Nat → Bytes → Option (α × Bytes)) (result : α) (bytes : Bytes) :
    Prop where
  begins : Begins bytes
  take_eq : ∀ fuel rest, 2 * bytes.length ≤ fuel → EndsNumber rest →
    take fuel (bytes ++ rest) = some (result, rest)

theorem Begins.skipBlanks_eq {bytes : Bytes} (h : Begins bytes) (rest : Bytes) :
    skipBlanks (bytes ++ rest) = bytes ++ rest := by
  obtain ⟨first, later, rfl, hblank, -⟩ := h
  rw [List.cons_append, skipBlanks_cons, if_neg hblank]

theorem Begins.append {bytes : Bytes} (h : Begins bytes) (rest : Bytes) : Begins (bytes ++ rest) := by
  obtain ⟨first, later, rfl, hfirst⟩ := h
  exact ⟨first, later ++ rest, rfl, hfirst⟩

/-- What has a byte is read in a step at least. -/
theorem readFrom_of_step {α : Type} {take : Nat → Bytes → Option (α × Bytes)} {result : α} {bytes : Bytes}
    (hbegins : Begins bytes)
    (htake : ∀ fuel rest, 2 * bytes.length ≤ fuel + 1 → EndsNumber rest →
      take (fuel + 1) (bytes ++ rest) = some (result, rest)) : ReadFrom take result bytes := by
  refine ⟨hbegins, fun fuel rest hfuel hrest => ?_⟩
  obtain ⟨fuel, rfl⟩ : ∃ less, fuel = less + 1 := by
    obtain ⟨first, later, rfl, -⟩ := hbegins
    rw [List.length_cons] at hfuel
    exact ⟨fuel - 1, by omega⟩
  exact htake fuel rest hfuel hrest

/-! ### Values without parts -/

theorem begins_of_takeNumber {bytes : Bytes} {result : Numeral × Bytes} (h : takeNumber bytes = some result) :
    ∃ first later, bytes = first :: later ∧ (first = 0x2D ∨ isDigit first = true) := by
  cases bytes with
  | nil => cases h
  | cons first later =>
      refine ⟨first, later, rfl, ?_⟩
      by_contra hother
      obtain ⟨hsign, hdigit⟩ := not_or.mp hother
      simp [takeNumber, hsign, takeDigits, hdigit] at h

theorem takeDocument_of_takeNumber {bytes rest : Bytes} {numeral : Numeral}
    (h : takeNumber bytes = some (numeral, rest)) (fuel : Nat) :
    takeDocument (fuel + 1) bytes = some (.number numeral, rest) := by
  obtain ⟨first, later, rfl, hfirst⟩ := begins_of_takeNumber h
  have hskip : skipBlanks (first :: later) = first :: later := by
    rw [skipBlanks_cons, if_neg]
    rintro (rfl | rfl | rfl | rfl) <;> revert hfirst <;> decide
  have hother : first ≠ 0x6E ∧ first ≠ 0x74 ∧ first ≠ 0x66 ∧ first ≠ 0x22 ∧ first ≠ 0x5B ∧
      first ≠ 0x7B := by
    refine ⟨?_, ?_, ?_, ?_, ?_, ?_⟩ <;> rintro rfl <;> revert hfirst <;> decide
  obtain ⟨hnull, htrue, hfalse, hquote, hbracket, hbrace⟩ := hother
  simp [takeDocument, hskip, hnull, htrue, hfalse, hquote, hbracket, hbrace, h]

theorem readFrom_number {numeral : Numeral} {bytes : Bytes} (h : numeral.StandsIn bytes) :
    ReadFrom takeDocument (.number numeral) bytes := by
  have hbegins : Begins bytes := by
    have halone := h [] endsNumber_nil
    rw [List.append_nil] at halone
    obtain ⟨first, later, rfl, hfirst⟩ := begins_of_takeNumber halone
    refine ⟨first, later, rfl, ?_, ?_, ?_⟩
    · rintro (rfl | rfl | rfl | rfl) <;> revert hfirst <;> decide
    · rintro rfl
      revert hfirst
      decide
    · rintro rfl
      revert hfirst
      decide
  exact readFrom_of_step hbegins fun fuel rest _ hrest => takeDocument_of_takeNumber (h rest hrest) fuel

theorem readFrom_string (text : String) :
    ReadFrom takeDocument (.string (some text)) (utf8 (quote text)) := by
  have hbegins : Begins (utf8 (quote text)) := by
    rw [utf8_quote]
    exact ⟨_, _, rfl, by decide⟩
  refine readFrom_of_step hbegins fun fuel rest _ _ => ?_
  rw [utf8_quote, List.cons_append, List.append_assoc]
  simp [takeDocument, skipBlanks, takeString_quote]

/-! ### Items -/

section Items

variable {item : Document} {items : List Document} {bytes later blanks : Bytes}

theorem readFrom_emptyArray : ReadFrom takeDocument (.array []) [0x5B, 0x5D] := by
  refine readFrom_of_step ⟨_, _, rfl, by decide⟩ fun fuel rest _ _ => ?_
  simp [takeDocument, skipBlanks]

/-- The items of an array stand behind its bracket. -/
theorem readFrom_array (hitems : ReadFrom takeItems items bytes) (hblanks : AreBlanks blanks) :
    ReadFrom takeDocument (.array items) (0x5B :: (blanks ++ bytes)) := by
  refine readFrom_of_step ⟨_, _, rfl, by decide⟩ fun fuel rest hfuel hrest => ?_
  rw [List.length_cons, List.length_append] at hfuel
  have hread := hitems.take_eq fuel rest (by omega) hrest
  have hskip := hitems.begins.skipBlanks_eq rest
  obtain ⟨first, more, rfl, -, hclosing, -⟩ := hitems.begins
  rw [List.cons_append] at hread hskip
  simp [takeDocument, skipBlanks_cons, IsBlank, skipBlanks_append hblanks, hskip, hclosing, hread]

/-- The last item stands before the bracket that closes the array. -/
theorem readFrom_lastItem (hitem : ReadFrom takeDocument item bytes) (hblanks : AreBlanks blanks) :
    ReadFrom takeItems [item] (bytes ++ (blanks ++ [0x5D])) := by
  refine readFrom_of_step (hitem.begins.append _) fun fuel rest hfuel hrest => ?_
  rw [List.length_append, List.length_append, List.length_singleton] at hfuel
  have hends := endsNumber_blanks hblanks (endsNumber_cons (.inr (.inr (.inl rfl))) rest)
  have hread := hitem.take_eq fuel _ (by omega) hends
  rw [List.append_assoc, List.append_assoc, takeItems]
  simp [hread, skipBlanks_append hblanks, skipBlanks_cons, IsBlank]

/-- An item stands before a comma and those that follow. -/
theorem readFrom_item (hitem : ReadFrom takeDocument item bytes) (hitems : ReadFrom takeItems items later)
    (hblanks : AreBlanks blanks) : ReadFrom takeItems (item :: items) (bytes ++ 0x2C :: (blanks ++ later)) := by
  refine readFrom_of_step (hitem.begins.append _) fun fuel rest hfuel hrest => ?_
  rw [List.length_append, List.length_cons, List.length_append] at hfuel
  have hread := hitem.take_eq fuel _ (by omega) (endsNumber_cons (.inr (.inl rfl)) (blanks ++ (later ++ rest)))
  have hlater := hitems.take_eq fuel rest (by omega) hrest
  rw [List.append_assoc, List.cons_append, List.append_assoc, takeItems]
  simp [hread, skipBlanks_cons, IsBlank, takeItems_blanks hblanks, hlater]

end Items

/-! ### Members -/

section Members

variable {name : String} {value : Document} {members : List (Option String × Document)}
  {bytes later blanks gap : Bytes}

theorem readFrom_emptyObject : ReadFrom takeDocument (.object []) [0x7B, 0x7D] := by
  refine readFrom_of_step ⟨_, _, rfl, by decide⟩ fun fuel rest _ _ => ?_
  simp [takeDocument, skipBlanks]

/-- The members of an object stand behind its brace. -/
theorem readFrom_object (hmembers : ReadFrom takeMembers members bytes) (hblanks : AreBlanks blanks) :
    ReadFrom takeDocument (.object members) (0x7B :: (blanks ++ bytes)) := by
  refine readFrom_of_step ⟨_, _, rfl, by decide⟩ fun fuel rest hfuel hrest => ?_
  rw [List.length_cons, List.length_append] at hfuel
  have hread := hmembers.take_eq fuel rest (by omega) hrest
  have hskip := hmembers.begins.skipBlanks_eq rest
  obtain ⟨first, more, rfl, -, -, hclosing⟩ := hmembers.begins
  rw [List.cons_append] at hread hskip
  simp [takeDocument, skipBlanks_cons, IsBlank, skipBlanks_append hblanks, hskip, hclosing, hread]

/-- The name of a member and its value. -/
def memberBytes (name : String) (gap bytes : Bytes) : Bytes :=
  utf8 (quote name) ++ 0x3A :: (gap ++ bytes)

theorem begins_memberBytes : Begins (memberBytes name gap bytes) := by
  rw [memberBytes, utf8_quote]
  exact ⟨_, _, rfl, by decide⟩

/-- Behind a member stands a comma and the next one, or the end of the object. -/
def takeLater (fuel : Nat) (first : Option String × Document) :
    Bytes → Option (List (Option String × Document) × Bytes)
  | 0x2C :: rest => do
    let (members, rest) ← takeMembers fuel rest
    return (first :: members, rest)
  | 0x7D :: rest => return ([first], rest)
  | _ => none

theorem takeMembers_memberBytes (hvalue : ReadFrom takeDocument value bytes) (hgap : AreBlanks gap)
    {fuel : Nat} {rest : Bytes} (hfuel : 2 * bytes.length ≤ fuel) (hrest : EndsNumber rest) :
    takeMembers (fuel + 1) (memberBytes name gap bytes ++ rest) =
      takeLater fuel (some name, value) (skipBlanks rest) := by
  have hread := hvalue.take_eq fuel rest hfuel hrest
  have hbytes : memberBytes name gap bytes ++ rest =
      0x22 :: (name.toList.flatMap spelling ++ 0x22 :: 0x3A :: (gap ++ (bytes ++ rest))) := by
    rw [memberBytes, utf8_quote]
    simp
  have hquote (later : Bytes) : skipBlanks (0x22 :: later) = 0x22 :: later := rfl
  have hcolon (later : Bytes) : skipBlanks (0x3A :: later) = 0x3A :: later := rfl
  rw [hbytes, takeMembers, hquote]
  simp only [takeString_quote, Option.bind_eq_bind, Option.bind_some, hcolon, takeDocument_blanks hgap, hread]
  rfl

theorem readFrom_lastMember (hvalue : ReadFrom takeDocument value bytes) (hgap : AreBlanks gap)
    (hblanks : AreBlanks blanks) :
    ReadFrom takeMembers [(some name, value)] (memberBytes name gap bytes ++ (blanks ++ [0x7D])) := by
  refine readFrom_of_step (begins_memberBytes.append _) fun fuel rest hfuel hrest => ?_
  rw [List.length_append, memberBytes, List.length_append, List.length_cons, List.length_append] at hfuel
  have hends := endsNumber_blanks hblanks (endsNumber_cons (.inr (.inr (.inr rfl))) rest)
  rw [List.append_assoc, List.append_assoc, List.singleton_append,
    takeMembers_memberBytes hvalue hgap (by omega) hends, skipBlanks_append hblanks]
  rfl

theorem readFrom_member (hvalue : ReadFrom takeDocument value bytes) (hgap : AreBlanks gap)
    (hmembers : ReadFrom takeMembers members later) (hblanks : AreBlanks blanks) :
    ReadFrom takeMembers ((some name, value) :: members)
      (memberBytes name gap bytes ++ 0x2C :: (blanks ++ later)) := by
  refine readFrom_of_step (begins_memberBytes.append _) fun fuel rest hfuel hrest => ?_
  rw [List.length_append, memberBytes, List.length_append, List.length_cons, List.length_append,
    List.length_cons, List.length_append] at hfuel
  have hread := hmembers.take_eq fuel rest (by omega) hrest
  rw [List.append_assoc, List.cons_append, List.append_assoc,
    takeMembers_memberBytes hvalue hgap (by omega) (endsNumber_cons (.inr (.inl rfl)) _)]
  show takeMembers fuel _ >>= _ = _
  rw [takeMembers_blanks hblanks, hread]
  rfl

end Members

/-! ### Texts -/

/-- A document that tells the value is read from the text. -/
def Renders (value : Value) (text : String) : Prop :=
  ∃ document, Tells value document ∧ ReadFrom takeDocument document (utf8 text)

/-- Documents that tell the items are read from the bytes, which end with the bracket. -/
def RendersItems (items : List Value) (bytes : Bytes) : Prop :=
  ∃ documents, List.Forall₂ Tells items documents ∧ ReadFrom takeItems documents bytes

/-- Fields that tell the members are read from the bytes, which end with the brace. -/
def RendersMembers (members : List (String × Value)) (bytes : Bytes) : Prop :=
  ∃ fields, TellsMembers members fields ∧ ReadFrom takeMembers fields bytes

theorem renders_null : Renders .null "null" := by
  have htext : utf8 "null" = [0x6E, 0x75, 0x6C, 0x6C] := by decide
  refine ⟨.null, .null, readFrom_of_step ⟨_, _, htext, by decide⟩ fun fuel rest _ _ => ?_⟩
  simp [htext, takeDocument, skipBlanks]

theorem renders_bool (value : Bool) : Renders (.bool value) (if value then "true" else "false") := by
  refine ⟨.bool value, .bool value, ?_⟩
  cases value with
  | false =>
      have htext : utf8 "false" = [0x66, 0x61, 0x6C, 0x73, 0x65] := by decide
      refine readFrom_of_step ⟨_, _, htext, by decide⟩ fun fuel rest _ _ => ?_
      simp [htext, takeDocument, skipBlanks]
  | true =>
      have htext : utf8 "true" = [0x74, 0x72, 0x75, 0x65] := by decide
      refine readFrom_of_step ⟨_, _, htext, by decide⟩ fun fuel rest _ _ => ?_
      simp [htext, takeDocument, skipBlanks]

theorem renders_int (value : Int) : Renders (.int value) (toString value) :=
  ⟨_, .int value, readFrom_number (Numeral.standsIn_toString value)⟩

theorem renders_float (bits : UInt64) : Renders (.float bits) (floatText bits) := by
  rcases told_floatText bits with ⟨htext, htold⟩ | ⟨numeral, htold, hstands⟩
  · obtain ⟨_, ⟨⟩, hread⟩ := renders_null
    rw [htext]
    exact ⟨.null, .float htold, hread⟩
  · exact ⟨.number numeral, .float htold, readFrom_number hstands⟩

theorem renders_string (text : String) : Renders (.string text) (quote text) :=
  ⟨_, .string text, readFrom_string text⟩

section Parts

variable {value : Value} {items : List Value} {members : List (String × Value)} {text name : String}
  {bytes blanks gap : Bytes}

theorem renders_array (hitems : RendersItems items bytes) (hblanks : AreBlanks blanks)
    (htext : utf8 text = 0x5B :: (blanks ++ bytes)) : Renders (.array items) text := by
  obtain ⟨documents, htold, hread⟩ := hitems
  refine ⟨_, .array htold, ?_⟩
  rw [htext]
  exact readFrom_array hread hblanks

theorem rendersItems_last (hitem : Renders value text) (hblanks : AreBlanks blanks) :
    RendersItems [value] (utf8 text ++ (blanks ++ [0x5D])) := by
  obtain ⟨document, htold, hread⟩ := hitem
  exact ⟨_, .cons htold .nil, readFrom_lastItem hread hblanks⟩

theorem rendersItems_cons (hitem : Renders value text) (hitems : RendersItems items bytes)
    (hblanks : AreBlanks blanks) : RendersItems (value :: items) (utf8 text ++ 0x2C :: (blanks ++ bytes)) := by
  obtain ⟨document, htold, hread⟩ := hitem
  obtain ⟨documents, hlater, htaken⟩ := hitems
  exact ⟨_, .cons htold hlater, readFrom_item hread htaken hblanks⟩

theorem renders_object (hmembers : RendersMembers members bytes) (hblanks : AreBlanks blanks)
    (htext : utf8 text = 0x7B :: (blanks ++ bytes)) : Renders (.object members) text := by
  obtain ⟨fields, htold, hread⟩ := hmembers
  refine ⟨_, .object htold, ?_⟩
  rw [htext]
  exact readFrom_object hread hblanks

theorem rendersMembers_last (hvalue : Renders value text) (hgap : AreBlanks gap) (hblanks : AreBlanks blanks) :
    RendersMembers [(name, value)] (memberBytes name gap (utf8 text) ++ (blanks ++ [0x7D])) := by
  obtain ⟨document, htold, hread⟩ := hvalue
  exact ⟨_, .cons htold .nil, readFrom_lastMember hread hgap hblanks⟩

theorem rendersMembers_cons (hvalue : Renders value text) (hgap : AreBlanks gap)
    (hmembers : RendersMembers members bytes) (hblanks : AreBlanks blanks) :
    RendersMembers ((name, value) :: members)
      (memberBytes name gap (utf8 text) ++ 0x2C :: (blanks ++ bytes)) := by
  obtain ⟨document, htold, hread⟩ := hvalue
  obtain ⟨fields, hlater, htaken⟩ := hmembers
  exact ⟨_, .cons htold hlater, readFrom_member hread hgap htaken hblanks⟩

end Parts

theorem utf8_comma : utf8 "," = [0x2C] := by
  decide

theorem utf8_member (name text : String) :
    utf8 (quote name ++ ":" ++ text) = memberBytes name [] (utf8 text) ∧
      utf8 (quote name ++ ": " ++ text) = memberBytes name [0x20] (utf8 text) := by
  have hcolon : utf8 ":" = [0x3A] ∧ utf8 ": " = [0x3A, 0x20] := by decide
  constructor
  · rw [utf8_append, utf8_append, hcolon.1, memberBytes, List.append_assoc]
    rfl
  · rw [utf8_append, utf8_append, hcolon.2, memberBytes, List.append_assoc]
    rfl

theorem areBlanks_newLine (depth : Nat) : AreBlanks (utf8 (newLine depth)) := by
  have hbreak : utf8 "\n" = [0x0A] := by decide
  intro byte hbyte
  rw [newLine, utf8_append, hbreak, utf8_ofList] at hbyte
  rcases List.mem_cons.mp hbyte with rfl | hbyte
  · decide
  · obtain ⟨c, hc, hbyte⟩ := List.mem_flatMap.mp hbyte
    rw [List.eq_of_mem_replicate hc] at hbyte
    obtain rfl := List.mem_singleton.mp hbyte
    decide

namespace Value

/-! On one line nothing stands between the parts but their marks. -/

mutual

theorem renders_compact : (value : Value) → Renders value value.compact
  | .null => renders_null
  | .bool value => renders_bool value
  | .int value => renders_int value
  | .float bits => renders_float bits
  | .string text => renders_string text
  | .array [] => ⟨_, .array .nil, readFrom_emptyArray⟩
  | .array (item :: items) => by
      refine renders_array (rendersItems_compact (item :: items) (List.cons_ne_nil _ _)) areBlanks_nil ?_
      rw [compact, utf8_append, utf8_append]
      rfl
  | .object [] => ⟨_, .object .nil, readFrom_emptyObject⟩
  | .object (member :: members) => by
      refine renders_object (rendersMembers_compact (member :: members) (List.cons_ne_nil _ _)) areBlanks_nil ?_
      rw [compact, utf8_append, utf8_append]
      rfl

theorem rendersItems_compact : (items : List Value) → items ≠ [] →
    RendersItems items (utf8 (compactItems items) ++ [0x5D])
  | [], hsome => absurd rfl hsome
  | [item], _ => rendersItems_last (renders_compact item) areBlanks_nil
  | item :: next :: items, _ => by
      have hlater := rendersItems_compact (next :: items) (List.cons_ne_nil _ _)
      rw [compactItems, utf8_append, utf8_append, utf8_comma, List.append_assoc, List.append_assoc]
      · exact rendersItems_cons (renders_compact item) hlater areBlanks_nil
      · exact List.cons_ne_nil _ _

theorem rendersMembers_compact : (members : List (String × Value)) → members ≠ [] →
    RendersMembers members (utf8 (compactMembers members) ++ [0x7D])
  | [], hsome => absurd rfl hsome
  | [(name, value)], _ => by
      rw [compactMembers, (utf8_member name _).1]
      exact rendersMembers_last (renders_compact value) areBlanks_nil areBlanks_nil
  | (name, value) :: next :: members, _ => by
      have hlater := rendersMembers_compact (next :: members) (List.cons_ne_nil _ _)
      rw [compactMembers, utf8_append, utf8_append, utf8_comma, (utf8_member name _).1, List.append_assoc,
        List.append_assoc]
      · exact rendersMembers_cons (renders_compact value) areBlanks_nil hlater areBlanks_nil
      · exact List.cons_ne_nil _ _

end

/-! Over several lines a new line stands before each part and before the end. -/

mutual

theorem renders_indented (depth : Nat) : (value : Value) → Renders value (indented depth value)
  | .null => renders_null
  | .bool value => renders_bool value
  | .int value => renders_int value
  | .float bits => renders_float bits
  | .string text => renders_string text
  | .array [] => ⟨_, .array .nil, readFrom_emptyArray⟩
  | .array (item :: items) => by
      obtain ⟨bytes, hbytes, hitems⟩ := rendersItems_indented (depth + 1) (areBlanks_newLine depth)
        (item :: items) (List.cons_ne_nil _ _)
      refine renders_array hitems (areBlanks_newLine (depth + 1)) ?_
      rw [indented, utf8_append, utf8_append, utf8_append, ← hbytes, List.append_assoc, List.append_assoc]
      rfl
  | .object [] => ⟨_, .object .nil, readFrom_emptyObject⟩
  | .object (member :: members) => by
      obtain ⟨bytes, hbytes, hmembers⟩ := rendersMembers_indented (depth + 1) (areBlanks_newLine depth)
        (member :: members) (List.cons_ne_nil _ _)
      refine renders_object hmembers (areBlanks_newLine (depth + 1)) ?_
      rw [indented, utf8_append, utf8_append, utf8_append, ← hbytes, List.append_assoc, List.append_assoc]
      rfl

theorem rendersItems_indented (depth : Nat) {ending : Bytes} (hending : AreBlanks ending) :
    (items : List Value) → items ≠ [] →
      ∃ bytes, utf8 (indentedItems depth items) ++ (ending ++ [0x5D]) = utf8 (newLine depth) ++ bytes ∧
        RendersItems items bytes
  | [], hsome => absurd rfl hsome
  | [item], _ => by
      refine ⟨_, ?_, rendersItems_last (renders_indented depth item) hending⟩
      rw [indentedItems, utf8_append, List.append_assoc]
  | item :: next :: items, _ => by
      obtain ⟨later, hlater, hitems⟩ := rendersItems_indented depth hending (next :: items) (List.cons_ne_nil _ _)
      refine ⟨_, ?_, rendersItems_cons (renders_indented depth item) hitems (areBlanks_newLine depth)⟩
      rw [indentedItems, utf8_append, utf8_append, utf8_append, utf8_comma, ← hlater]
      · simp only [List.append_assoc, List.cons_append, List.nil_append]
      · exact List.cons_ne_nil _ _

theorem rendersMembers_indented (depth : Nat) {ending : Bytes} (hending : AreBlanks ending) :
    (members : List (String × Value)) → members ≠ [] →
      ∃ bytes, utf8 (indentedMembers depth members) ++ (ending ++ [0x7D]) = utf8 (newLine depth) ++ bytes ∧
        RendersMembers members bytes
  | [], hsome => absurd rfl hsome
  | [(name, value)], _ => by
      have hgap : AreBlanks [0x20] := areBlanks_singleton (by decide)
      refine ⟨_, ?_, rendersMembers_last (renders_indented depth value) hgap hending⟩
      rw [indentedMembers, ← (utf8_member name _).2]
      simp only [utf8_append, List.append_assoc]
  | (name, value) :: next :: members, _ => by
      obtain ⟨later, hlater, hmembers⟩ :=
        rendersMembers_indented depth hending (next :: members) (List.cons_ne_nil _ _)
      have hgap : AreBlanks [0x20] := areBlanks_singleton (by decide)
      refine ⟨_, ?_, rendersMembers_cons (renders_indented depth value) hgap hmembers (areBlanks_newLine depth)⟩
      rw [indentedMembers, ← (utf8_member name _).2, ← hlater]
      · simp only [utf8_append, utf8_comma, List.append_assoc, List.cons_append, List.nil_append]
      · exact List.cons_ne_nil _ _

end

end Value

/-- A text is read as a document that tells its value, with blanks behind it or without. -/
theorem read?_of_renders {value : Value} {text : String} (h : Renders value text) {blanks : Bytes}
    (hblanks : AreBlanks blanks) :
    ∃ document, Document.read? (utf8 text ++ blanks) = some document ∧ Tells value document := by
  obtain ⟨document, htold, hread⟩ := h
  have hends := endsNumber_blanks hblanks endsNumber_nil
  rw [List.append_nil] at hends
  have hskip : skipBlanks blanks = [] := by
    have hnil := skipBlanks_append hblanks []
    rwa [List.append_nil] at hnil
  have htaken := hread.take_eq (2 * (utf8 text ++ blanks).length + 1) blanks
    (by rw [List.length_append]; omega) hends
  refine ⟨document, ?_, htold⟩
  rw [Document.read?, htaken]
  exact if_pos hskip

theorem read?_compact (value : Value) :
    ∃ document, Document.read? (utf8 value.compact) = some document ∧ Tells value document := by
  have hread := read?_of_renders value.renders_compact areBlanks_nil
  rwa [List.append_nil] at hread

end RecordGateway.Json
