import Mathlib.Data.List.Induction
import RecordGateway.Envelope.Request
import RecordGateway.Proofs.Envelope.Wire

/-!
Requests read back. A message is read field by field into an empty one. `Collects` says that some fields, read
in their order, make one message of another, and it grows by one field at a time: plain ones, which are not
written while they hold their default (`Collects.scalar`), optional ones, and repeated ones. So each message is
followed in the order in which it is written, and a message inside a message is one more kind of value
(`keeps_message`). A request is read back from its bytes as it was (`Request.encode_loses_nothing`).
-/

namespace RecordGateway.Envelope

section

variable {α β : Type} {add? : α → Field → Option α} {start message next : α} {fields more : List Field}

/-- Reading the fields one after the other, none of which is too long, makes a message of another. -/
structure Collects (add? : α → Field → Option α) (start : α) (fields : List Field) (message : α) :
    Prop where
  plain : ∀ field ∈ fields, field.IsPlain
  folded : (∀ field ∈ fields, field.value.Fits) → fields.foldlM add? start = some message

/-- A value is written so that it can be read. -/
structure Keeps (write : β → Wire) (read? : Wire → Option β) (value : β) : Prop where
  plain : (write value).IsPlain
  read? : (write value).Fits → read? (write value) = some value

/-! ### Values -/

theorem keeps_uint32 (value : UInt32) :
    Keeps (fun value => .varint value.toUInt64) Wire.asUInt32? value :=
  ⟨trivial, fun _ => by simp [Wire.asUInt32?, Wire.asUInt64?]⟩

theorem keeps_uint64 (value : UInt64) : Keeps .varint Wire.asUInt64? value :=
  ⟨trivial, fun _ => rfl⟩

theorem keeps_int64 (value : Int64) : Keeps (fun value => .varint value.toUInt64) Wire.asInt64? value :=
  ⟨trivial, fun _ => by simp [Wire.asInt64?, Wire.asUInt64?]⟩

/-- The lower half of a number that was extended by its sign is the number. -/
theorem toInt32_toInt64 (value : Int32) : value.toInt64.toUInt64.toUInt32.toInt32 = value := by
  refine Int32.toBitVec.inj ?_
  change (value.toBitVec.signExtend 64).setWidth 32 = value.toBitVec
  ext i hi
  rw [BitVec.getElem_setWidth, BitVec.getLsbD_signExtend]
  simp [hi, Nat.lt_trans hi (by decide : 32 < 64)]

theorem keeps_int32 (value : Int32) :
    Keeps (fun value => .varint value.toInt64.toUInt64) Wire.asInt32? value :=
  ⟨trivial, fun _ => congrArg some (toInt32_toInt64 value)⟩

theorem keeps_bytes (value : Bytes) : Keeps .bytes Wire.asBytes? value :=
  ⟨trivial, fun _ => rfl⟩

theorem keeps_bool (value : Bool) :
    Keeps (fun value => .varint (if value then 1 else 0)) Wire.asBool? value :=
  ⟨trivial, fun _ => by cases value <;> rfl⟩

theorem keeps_text (value : String) : Keeps (fun value => .bytes (utf8 value)) Wire.asText? value :=
  ⟨trivial, fun _ => Utf8.decode?_utf8 value⟩

/-- An inner message is read from its fields, one level deeper. -/
theorem keeps_message {add? : Nat → α → Field → Option α} {toFields : α → List Field} {depth : Nat}
    (h : Collects (add? depth) start (toFields message) message) :
    Keeps (fun message => .bytes (encodeFields (toFields message))) (readInto? add? (depth + 1) start)
      message where
  plain := trivial
  read? hfits := by
    change readFields? depth _ >>= _ = _
    rw [readFields?_encodeFields h.plain hfits]
    exact h.folded fun _ => fits_of_mem hfits

/-! ### Fields -/

theorem collects_nil (add? : α → Field → Option α) (start : α) : Collects add? start [] start :=
  ⟨nofun, fun _ => rfl⟩

theorem foldlM_wrap {outer? : β → Field → Option β} {wrap : α → β}
    (hwrap : ∀ field ∈ fields, ∀ inner,
      outer? (wrap inner) field = add? inner field >>= fun inner => some (wrap inner)) :
    fields.foldlM outer? (wrap start) = fields.foldlM add? start >>= fun inner => some (wrap inner) := by
  induction fields generalizing start with
  | nil => rfl
  | cons field fields ih =>
      rw [List.forall_mem_cons] at hwrap
      rw [List.foldlM_cons, List.foldlM_cons, hwrap.1]
      cases add? start field with
      | none => rfl
      | some next => exact ih hwrap.2

namespace Collects

theorem append (h : Collects add? start fields message) (hmore : Collects add? message more next) :
    Collects add? start (fields ++ more) next where
  plain := List.forall_mem_append.mpr ⟨h.plain, hmore.plain⟩
  folded hfits := by
    rw [List.forall_mem_append] at hfits
    rw [List.foldlM_append, h.folded hfits.1]
    exact hmore.folded hfits.2

variable {number : Nat} {write : β → Wire} {read? : Wire → Option β}

/-- One more field, whose value is read and set in the message. -/
theorem field {value : β} (h : Collects add? start fields message)
    (hnumber : 0 < number ∧ number < 2 ^ 29) (hkeeps : Keeps write read? value)
    (hadd : ∀ wire, read? wire = some value → add? message ⟨number, wire⟩ = some next) :
    Collects add? start (fields ++ [⟨number, write value⟩]) next := by
  refine h.append ⟨?_, fun hfits => ?_⟩
  · rintro field hmem
    obtain rfl := List.mem_singleton.mp hmem
    exact ⟨hnumber, hkeeps.plain⟩
  · have hvalue := hadd _ (hkeeps.read? (hfits _ (List.mem_singleton_self _)))
    rw [List.foldlM_cons, hvalue]
    rfl

/-- A plain field is not written when it holds the default, which the message then has already. -/
theorem scalar [DecidableEq β] (h : Collects add? start fields message) (number : Nat) {default : β}
    (value : β) (set : α → β → α) (hkeeps : Keeps write read? value)
    (hnumber : 0 < number ∧ number < 2 ^ 29)
    (hadd : ∀ wire, add? message ⟨number, wire⟩ = read? wire >>= fun value => some (set message value))
    (hdefault : set message default = message) :
    Collects add? start (fields ++ if value = default then [] else [⟨number, write value⟩])
      (set message value) := by
  split
  · next heq =>
      rw [heq, hdefault, List.append_nil]
      exact h
  · exact h.field hnumber hkeeps fun wire hread => by rw [hadd, hread]; rfl

/-- An optional field is written when it is present. -/
theorem optional (h : Collects add? start fields message) (number : Nat) (value : Option β)
    (set : α → Option β → α) (hkeeps : ∀ value, Keeps write read? value)
    (hnumber : 0 < number ∧ number < 2 ^ 29)
    (hadd : ∀ wire, add? message ⟨number, wire⟩ =
      read? wire >>= fun value => some (set message (some value)))
    (hnone : set message none = message) :
    Collects add? start (fields ++ value.toList.map fun value => ⟨number, write value⟩)
      (set message value) := by
  cases value with
  | none =>
      rw [hnone]
      exact h.append (collects_nil add? message)
  | some value => exact h.field hnumber (hkeeps value) fun wire hread => by rw [hadd, hread]; rfl

/-- A repeated field is written for each value, and each value is read behind the earlier ones. -/
theorem repeated (h : Collects add? start fields message) (number : Nat) (values : List β)
    (set : α → List β → α) (hkeeps : ∀ value, Keeps write read? value)
    (hnumber : 0 < number ∧ number < 2 ^ 29)
    (hadd : ∀ earlier wire, add? (set message earlier) ⟨number, wire⟩ =
      read? wire >>= fun value => some (set message (earlier ++ [value])))
    (hnil : set message [] = message) :
    Collects add? start (fields ++ values.map fun value => ⟨number, write value⟩)
      (set message values) := by
  induction values using List.reverseRecOn with
  | nil =>
      rw [hnil]
      exact h.append (collects_nil add? message)
  | append_singleton values value ih =>
      rw [List.map_append, ← List.append_assoc]
      exact ih.field hnumber (hkeeps value) fun wire hread => by rw [hadd, hread]; rfl

/-- A message that stands in another without a field of its own takes its fields there. -/
theorem within {outer? : β → Field → Option β} (h : Collects add? start fields message) (wrap : α → β)
    (hwrap : ∀ field ∈ fields, ∀ inner,
      outer? (wrap inner) field = add? inner field >>= fun inner => some (wrap inner)) :
    Collects outer? (wrap start) fields (wrap message) where
  plain := h.plain
  folded hfits := by
    rw [foldlM_wrap hwrap, h.folded hfits]
    rfl

end Collects

end

/-! ### How messages write their fields -/

theorem utf8_eq_nil_iff {text : String} : utf8 text = [] ↔ text = "" := by
  constructor
  · intro h
    have hread := Utf8.decode?_utf8 text
    rw [h] at hread
    exact (Option.some.inj hread).symm
  · rintro rfl
    rfl

theorem textField_eq (number : Nat) (text : String) :
    textField number text = if text = "" then [] else [⟨number, .bytes (utf8 text)⟩] := by
  simp only [textField, bytesField, utf8_eq_nil_iff]

theorem boolField_eq (number : Nat) (value : Bool) :
    boolField number value =
      if value = false then [] else [⟨number, .varint (if value then 1 else 0)⟩] := by
  cases value <;> rfl

theorem presentTexts_eq (number : Nat) (texts : List String) :
    presentTexts number texts = texts.map fun text => ⟨number, .bytes (utf8 text)⟩ :=
  List.map_map

theorem presentMessages_eq {α : Type} (number : Nat) (toFields : α → List Field) (messages : List α) :
    presentMessages number (messages.map toFields) =
      messages.map fun message => ⟨number, .bytes (encodeFields (toFields message))⟩ := by
  rw [presentMessages, presentBytes, List.map_map, List.map_map]
  rfl

/-! ### Messages -/

variable {depth : Nat}

theorem CopyPolicy.collects_toFields (p : CopyPolicy) : Collects (add? depth) {} p.toFields p :=
  collects_nil (add? depth) {}
    |>.scalar 1 p.replica (fun p replica => { p with replica })
      (keeps_int32 _) (by decide) (fun _ => rfl) rfl
    |>.scalar 2 p.modeAp (fun p modeAp => { p with modeAp }) (keeps_int32 _) (by decide) (fun _ => rfl) rfl
    |>.scalar 3 p.modeSc (fun p modeSc => { p with modeSc }) (keeps_int32 _) (by decide) (fun _ => rfl) rfl

theorem CopyPolicy.number_of_mem {p : CopyPolicy} {field : Field} (hmem : field ∈ p.toFields) :
    field.number = 1 ∨ field.number = 2 ∨ field.number = 3 := by
  simp only [toFields, int32Field, List.mem_append] at hmem
  grind [presentInt32]

/-- Other policies take the first three fields for their copies. -/
theorem CopyPolicy.collects_within {α : Type} {outer? : α → Field → Option α} (depth : Nat)
    (p : CopyPolicy) (wrap : CopyPolicy → α)
    (hwrap : ∀ number, number = 1 ∨ number = 2 ∨ number = 3 → ∀ value copies,
      outer? (wrap copies) ⟨number, value⟩ =
        add? depth copies ⟨number, value⟩ >>= fun copies => some (wrap copies)) :
    Collects outer? (wrap {}) p.toFields (wrap p) := by
  have hcopies : Collects (add? depth) {} p.toFields p := p.collects_toFields
  exact hcopies.within wrap fun field hmem => hwrap field.number (number_of_mem hmem) field.value

theorem QueryPolicy.collects_toFields (p : QueryPolicy) : Collects (add? depth) {} p.toFields p := by
  have hcopies : Collects (add? depth) {} p.copies.toFields { copies := p.copies } := by
    refine p.copies.collects_within depth (fun copies => ({ copies } : QueryPolicy)) ?_
    rintro number (rfl | rfl | rfl) value copies <;> rfl
  simp only [toFields, boolField_eq]
  exact hcopies
    |>.scalar 4 p.totalTimeout (fun p totalTimeout => { p with totalTimeout })
      (keeps_uint32 _) (by decide) (fun _ => rfl) rfl
    |>.scalar 5 p.includeBins (fun p includeBins => { p with includeBins })
      (keeps_bool _) (by decide) (fun _ => rfl) rfl
    |>.scalar 6 p.queueSize (fun p queueSize => { p with queueSize })
      (keeps_uint32 _) (by decide) (fun _ => rfl) rfl
    |>.scalar 7 p.shortQuery (fun p shortQuery => { p with shortQuery })
      (keeps_bool _) (by decide) (fun _ => rfl) rfl

theorem ScanPolicy.collects_toFields (p : ScanPolicy) : Collects (add? depth) {} p.toFields p := by
  have hcopies : Collects (add? depth) {} p.copies.toFields { copies := p.copies } := by
    refine p.copies.collects_within depth (fun copies => ({ copies } : ScanPolicy)) ?_
    rintro number (rfl | rfl | rfl) value copies <;> rfl
  simp only [toFields, boolField_eq]
  exact hcopies
    |>.scalar 4 p.totalTimeout (fun p totalTimeout => { p with totalTimeout })
      (keeps_uint32 _) (by decide) (fun _ => rfl) rfl
    |>.scalar 5 p.includeBins (fun p includeBins => { p with includeBins })
      (keeps_bool _) (by decide) (fun _ => rfl) rfl
    |>.scalar 6 p.recordsPerSecond (fun p recordsPerSecond => { p with recordsPerSecond })
      (keeps_uint32 _) (by decide) (fun _ => rfl) rfl
    |>.scalar 7 p.maxRecords (fun p maxRecords => { p with maxRecords })
      (keeps_uint64 _) (by decide) (fun _ => rfl) rfl

theorem Filter.collects_toFields (f : Filter) : Collects (add? depth) {} f.toFields f := by
  simp only [toFields, textField_eq]
  exact collects_nil (add? depth) {}
    |>.scalar 1 f.bin (fun f bin => { f with bin }) (keeps_text _) (by decide) (fun _ => rfl) rfl
    |>.scalar 2 f.indexType (fun f indexType => { f with indexType })
      (keeps_int32 _) (by decide) (fun _ => rfl) rfl
    |>.scalar 3 f.valueType (fun f valueType => { f with valueType })
      (keeps_int32 _) (by decide) (fun _ => rfl) rfl
    |>.scalar 4 f.first (fun f first => { f with first }) (keeps_bytes _) (by decide) (fun _ => rfl) rfl
    |>.scalar 5 f.last (fun f last => { f with last }) (keeps_bytes _) (by decide) (fun _ => rfl) rfl

theorem Operation.collects_toFields (o : Operation) : Collects (add? depth) {} o.toFields o := by
  simp only [toFields, presentTexts_eq]
  exact collects_nil (add? depth) {}
    |>.scalar 1 o.kind (fun o kind => { o with kind }) (keeps_int32 _) (by decide) (fun _ => rfl) rfl
    |>.optional 2 o.bin (fun o bin => { o with bin }) keeps_text (by decide) (fun _ => rfl) rfl
    |>.scalar 3 o.value (fun o value => { o with value }) (keeps_bytes _) (by decide) (fun _ => rfl) rfl

theorem Statement.collects_toFields (s : Statement) : Collects (add? (depth + 1)) {} s.toFields s := by
  simp only [toFields, textField_eq, presentTexts_eq, presentMessages_eq]
  exact collects_nil (add? (depth + 1)) {}
    |>.scalar 1 s.ns (fun s ns => { s with ns }) (keeps_text _) (by decide) (fun _ => rfl) rfl
    |>.scalar 2 s.set (fun s set => { s with set }) (keeps_text _) (by decide) (fun _ => rfl) rfl
    |>.optional 3 s.index (fun s index => { s with index }) keeps_text (by decide) (fun _ => rfl) rfl
    |>.repeated 4 s.bins (fun s bins => { s with bins }) keeps_text (by decide) (fun _ _ => rfl) rfl
    |>.optional 5 s.filter (fun s filter => { s with filter })
      (fun inner => keeps_message (Filter.collects_toFields inner)) (by decide) (fun _ => rfl) rfl
    |>.optional 6 s.package (fun s package => { s with package }) keeps_text (by decide) (fun _ => rfl) rfl
    |>.optional 7 s.function (fun s function => { s with function })
      keeps_text (by decide) (fun _ => rfl) rfl
    |>.repeated 8 s.arguments (fun s arguments => { s with arguments })
      keeps_bytes (by decide) (fun _ _ => rfl) rfl
    |>.repeated 9 s.operations (fun s operations => { s with operations })
      (fun inner => keeps_message (Operation.collects_toFields inner)) (by decide) (fun _ _ => rfl) rfl
    |>.scalar 10 s.taskId (fun s taskId => { s with taskId })
      (keeps_uint64 _) (by decide) (fun _ => rfl) rfl
    |>.scalar 11 s.maxRecords (fun s maxRecords => { s with maxRecords })
      (keeps_uint64 _) (by decide) (fun _ => rfl) rfl
    |>.scalar 12 s.recordsPerSecond (fun s recordsPerSecond => { s with recordsPerSecond })
      (keeps_uint32 _) (by decide) (fun _ => rfl) rfl

theorem PartitionStatus.collects_toFields (p : PartitionStatus) : Collects (add? depth) {} p.toFields p := by
  simp only [toFields, boolField_eq]
  exact collects_nil (add? depth) {}
    |>.scalar 1 p.id (fun p id => { p with id }) (keeps_uint32 _) (by decide) (fun _ => rfl) rfl
    |>.optional 2 p.position (fun p position => { p with position })
      keeps_int64 (by decide) (fun _ => rfl) rfl
    |>.optional 3 p.digest (fun p digest => { p with digest }) keeps_bytes (by decide) (fun _ => rfl) rfl
    |>.scalar 4 p.retry (fun p retry => { p with retry }) (keeps_bool _) (by decide) (fun _ => rfl) rfl

theorem PartitionFilter.collects_toFields (p : PartitionFilter) :
    Collects (add? (depth + 1)) {} p.toFields p := by
  simp only [toFields, presentMessages_eq, boolField_eq]
  exact collects_nil (add? (depth + 1)) {}
    |>.scalar 1 p.first (fun p first => { p with first }) (keeps_uint32 _) (by decide) (fun _ => rfl) rfl
    |>.scalar 2 p.count (fun p count => { p with count }) (keeps_uint32 _) (by decide) (fun _ => rfl) rfl
    |>.optional 3 p.digest (fun p digest => { p with digest }) keeps_bytes (by decide) (fun _ => rfl) rfl
    |>.repeated 4 p.statuses (fun p statuses => { p with statuses })
      (fun inner => keeps_message (PartitionStatus.collects_toFields inner)) (by decide) (fun _ _ => rfl) rfl
    |>.scalar 5 p.retry (fun p retry => { p with retry }) (keeps_bool _) (by decide) (fun _ => rfl) rfl

theorem Query.collects_toFields (q : Query) : Collects (add? (depth + 2)) {} q.toFields q := by
  simp only [toFields, presentMessages_eq]
  exact collects_nil (add? (depth + 2)) {}
    |>.optional 1 q.policy (fun q policy => { q with policy })
      (fun inner => keeps_message (QueryPolicy.collects_toFields inner)) (by decide) (fun _ => rfl) rfl
    |>.optional 2 q.statement (fun q statement => { q with statement })
      (fun inner => keeps_message (Statement.collects_toFields inner)) (by decide) (fun _ => rfl) rfl
    |>.optional 3 q.partitions (fun q partitions => { q with partitions })
      (fun inner => keeps_message (PartitionFilter.collects_toFields inner)) (by decide) (fun _ => rfl) rfl

theorem Scan.collects_toFields (s : Scan) : Collects (add? (depth + 2)) {} s.toFields s := by
  simp only [toFields, textField_eq, presentTexts_eq, presentMessages_eq]
  exact collects_nil (add? (depth + 2)) {}
    |>.optional 1 s.policy (fun s policy => { s with policy })
      (fun inner => keeps_message (ScanPolicy.collects_toFields inner)) (by decide) (fun _ => rfl) rfl
    |>.scalar 2 s.ns (fun s ns => { s with ns }) (keeps_text _) (by decide) (fun _ => rfl) rfl
    |>.scalar 3 s.set (fun s set => { s with set }) (keeps_text _) (by decide) (fun _ => rfl) rfl
    |>.repeated 4 s.bins (fun s bins => { s with bins }) keeps_text (by decide) (fun _ _ => rfl) rfl
    |>.optional 5 s.partitions (fun s partitions => { s with partitions })
      (fun inner => keeps_message (PartitionFilter.collects_toFields inner)) (by decide) (fun _ => rfl) rfl

theorem BackgroundTask.collects_toFields (b : BackgroundTask) :
    Collects (add? (depth + 2)) {} b.toFields b := by
  simp only [toFields, presentMessages_eq]
  exact collects_nil (add? (depth + 2)) {}
    |>.optional 1 b.policy (fun b policy => { b with policy })
      (fun inner => keeps_message (CopyPolicy.collects_toFields inner)) (by decide) (fun _ => rfl) rfl
    |>.optional 2 b.statement (fun b statement => { b with statement })
      (fun inner => keeps_message (Statement.collects_toFields inner)) (by decide) (fun _ => rfl) rfl

theorem TaskQuestion.collects_toFields (q : TaskQuestion) : Collects (add? depth) {} q.toFields q := by
  simp only [toFields, boolField_eq]
  exact collects_nil (add? depth) {}
    |>.scalar 1 q.taskId (fun q taskId => { q with taskId }) (keeps_uint64 _) (by decide) (fun _ => rfl) rfl
    |>.scalar 2 q.isScan (fun q isScan => { q with isScan }) (keeps_bool _) (by decide) (fun _ => rfl) rfl

theorem Request.collects_toFields (r : Request) : Collects (add? (depth + 3)) {} r.toFields r := by
  simp only [toFields, presentMessages_eq]
  exact collects_nil (add? (depth + 3)) {}
    |>.scalar 1 r.id (fun r id => { r with id }) (keeps_uint32 _) (by decide) (fun _ => rfl) rfl
    |>.scalar 2 r.iteration (fun r iteration => { r with iteration })
      (keeps_uint32 _) (by decide) (fun _ => rfl) rfl
    |>.scalar 3 r.payload (fun r payload => { r with payload })
      (keeps_bytes _) (by decide) (fun _ => rfl) rfl
    |>.optional 4 r.readPolicy (fun r readPolicy => { r with readPolicy })
      (fun inner => keeps_message (CopyPolicy.collects_toFields inner)) (by decide) (fun _ => rfl) rfl
    |>.optional 5 r.writePolicy (fun r writePolicy => { r with writePolicy })
      (fun inner => keeps_message (CopyPolicy.collects_toFields inner)) (by decide) (fun _ => rfl) rfl
    |>.optional 6 r.scan (fun r scan => { r with scan })
      (fun inner => keeps_message (Scan.collects_toFields inner)) (by decide) (fun _ => rfl) rfl
    |>.optional 7 r.query (fun r query => { r with query })
      (fun inner => keeps_message (Query.collects_toFields inner)) (by decide) (fun _ => rfl) rfl
    |>.optional 8 r.backgroundTask (fun r backgroundTask => { r with backgroundTask })
      (fun inner => keeps_message (BackgroundTask.collects_toFields inner)) (by decide) (fun _ => rfl) rfl
    |>.optional 9 r.taskQuestion (fun r taskQuestion => { r with taskQuestion })
      (fun inner => keeps_message (TaskQuestion.collects_toFields inner)) (by decide) (fun _ => rfl) rfl

/-! ### Requests -/

namespace Request

theorem decode?_encode {r : Request} (hlength : r.encode.length < UInt64.size) :
    decode? r.encode = some r := by
  have hcollects : Collects (add? maxDepth) {} r.toFields r := r.collects_toFields
  rw [decode?, encode, readFields?_encodeFields hcollects.plain hlength]
  exact hcollects.folded fun _ => fits_of_mem hlength

/-- The bytes of a request fall into the fields that it lists, and give the request back; no other request has
the same bytes. The bytes are as many as the wire can count, which is more than any memory holds. -/
theorem encode_loses_nothing (r : Request) (hlength : r.encode.length < UInt64.size) :
    readFields? maxDepth r.encode = some r.toFields ∧ decode? r.encode = some r ∧
      ∀ other : Request, other.encode = r.encode → other = r := by
  have hcollects : Collects (add? maxDepth) {} r.toFields r := r.collects_toFields
  refine ⟨readFields?_encodeFields hcollects.plain hlength, decode?_encode hlength, ?_⟩
  intro other hsame
  have hother : decode? other.encode = some other := decode?_encode (hsame ▸ hlength)
  rw [hsame, decode?_encode hlength] at hother
  exact (Option.some.inj hother).symm

/-- A query with fields that are absent, that hold their default and that are present but empty, with the
least and the greatest numbers. -/
def intricate : Request where
  id := 7
  query := some
    { policy := some { copies := { replica := -1 }, totalTimeout := 4294967295 }
      statement := some
        { ns := "test", index := some "", bins := ["", "é"], filter := some {}, arguments := [[], [0]]
          operations := [{ kind := -2147483648, bin := some "" }, {}]
          taskId := 18446744073709551615 }
      partitions := some
        { count := 1, digest := some [], statuses := [{ id := 5, position := some (-1) }] } }
  backgroundTask := some { policy := some {} }

theorem intricate_read_back :
    intricate.encode.length < UInt64.size ∧ decode? intricate.encode = some intricate ∧
      ∀ other : Request, other.encode = intricate.encode → other = intricate := by
  have hlength : intricate.encode.length < UInt64.size := by decide +kernel
  exact ⟨hlength, (encode_loses_nothing intricate hlength).2⟩

end Request
end RecordGateway.Envelope
