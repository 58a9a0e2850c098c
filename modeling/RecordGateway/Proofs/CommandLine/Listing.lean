import RecordGateway.CommandLine
import RecordGateway.Proofs.Client.Packing
import RecordGateway.Proofs.Json.Texts
import RecordGateway.Proofs.Row.Recovery

/-!
What is printed of a captured payload. Its rows are harvested from its bytes, whole groups first and then row
by row, and both ways of listing look at the same harvest: the one prints all of its rows, and only if the
bytes are whole; the other stops at the first row (`readListing_spec`). How rows are packed into groups leaves
no trace in the harvest (`Packing.harvest_eq`). What is printed can be read back (`Json.read?_pretty`).
-/

namespace RecordGateway

open RecordGateway.Flow

/-! ### Members of objects -/

namespace Json

variable {name : String} {value : Value} {members others : List (String × Value)}

/-- An object without the members of a name. -/
def Value.without (name : String) : Value → Value
  | .object members => .object (members.filter (·.1 != name))
  | value => value

end Json

namespace CommandLine

open Row

variable {isStream : Bool} {header : Row.Header} {key : KeyEcho} {record : Record} {bytes body rest : Bytes}
  {cursor : Cursor} {row : Row.Header × KeyEcho × Record}
  {rows : List (Row.Header × KeyEcho × Record)}

/-! ### Listed rows -/

/-- The listing of a row with its fixed part and its key. -/
def listWhole (isStream : Bool) (row : Row.Header × KeyEcho × Record) : Json.Value :=
  listRow isStream row.1 row.2.1 row.2.2

/-- What every listing of a row tells, in a stream or alone. -/
def told (row : Row.Header × KeyEcho × Record) : List (String × Json.Value) :=
  ("result_code", .int row.1.resultCode) ::
    ((if row.1.isPartitionDone then [("partition_done", .int row.1.generation.toNat)]
      else
        [("generation", .int row.2.2.generation.toNat), ("expiration", .int row.2.2.expiration.toNat),
          ("bins", .ofMembers (row.2.2.bins.map fun (name, value) => (name, listValue value)))]) ++
      row.2.1.digest.toList.map fun digest => ("digest", .string (Hex.encode digest.bytes)))

theorem takes_readWhole {front : Bytes} (h : Spells (some <$> readWhole) front (some row)) :
    readWhole.Takes front row := by
  intro rest position
  have hwhole := h.takes (local_readWhole.map some) rest position
  rw [map_eq_pure_bind, run_bind_ok_iff] at hwhole
  obtain ⟨read, middle, hread, hpure⟩ := hwhole
  obtain ⟨hrow, rfl⟩ := Prod.mk.inj hpure
  obtain rfl := Option.some.inj (Except.ok.inj hrow)
  exact hread

/-- Of a row that can be read whole, the last one ends the list and any other is listed. -/
theorem run_readListedRow (isStream : Bool) {final : Cursor}
    (h : readWhole.run.run cursor = (.ok row, final)) :
    (row.1.isLast = true → ∃ behind, (readListedRow isStream).run.run cursor = (.ok none, behind)) ∧
      (row.1.isLast = false →
        (readListedRow isStream).run.run cursor = (.ok (some (listWhole isStream row)), final)) := by
  obtain ⟨behind, hheader, hkeyed⟩ := run_readWhole_ok_iff.mp h
  unfold readListedRow
  constructor
  · intro hlast
    refine ⟨behind, run_bind_ok_iff.mpr ⟨row.1, behind, hheader, ?_⟩⟩
    rw [if_pos hlast]
    rfl
  · intro hmore
    refine run_bind_ok_iff.mpr ⟨row.1, behind, hheader, ?_⟩
    rw [if_neg (Bool.not_eq_true _ ▸ hmore)]
    exact run_bind_ok_iff.mpr ⟨row.2, final, hkeyed, rfl⟩

/-- The rows before the row after the last. -/
def beforeLast (rows : List (Row.Header × KeyEcho × Record)) : List (Row.Header × KeyEcho × Record) :=
  rows.takeWhile fun row => !row.1.isLast

/-- Whether the row after the last is among the rows. -/
def hasLast (rows : List (Row.Header × KeyEcho × Record)) : Bool :=
  rows.any fun row => row.1.isLast

@[simp] theorem beforeLast_cons (row : Row.Header × KeyEcho × Record)
    (rows : List (Row.Header × KeyEcho × Record)) :
    beforeLast (row :: rows) = if row.1.isLast then [] else row :: beforeLast rows := by
  rw [beforeLast, List.takeWhile_cons]
  cases row.1.isLast <;> rfl

@[simp] theorem hasLast_cons (row : Row.Header × KeyEcho × Record)
    (rows : List (Row.Header × KeyEcho × Record)) :
    hasLast (row :: rows) = (row.1.isLast || hasLast rows) :=
  rfl

theorem beforeLast_append (rows later : List (Row.Header × KeyEcho × Record)) :
    beforeLast (rows ++ later) = beforeLast rows ++ if hasLast rows then [] else beforeLast later := by
  induction rows with
  | nil => rfl
  | cons row rows ih =>
      rw [List.cons_append, beforeLast_cons, beforeLast_cons, hasLast_cons, ih]
      cases row.1.isLast <;> rfl

/-- The rows of a body are listed up to the row after the last, and behind that one anything may come. -/
theorem unfold_listed (isStream : Bool) (h : SpellsAll (some <$> readWhole) body rows) {fuel : Nat}
    (hfuel : rows.length ≤ fuel) {junk : Bytes} (hjunk : junk = [] ∨ hasLast rows = true)
    (position : Nat) :
    unfold (readListedRow isStream) fuel ⟨body ++ junk, position⟩ =
      ((beforeLast rows).map (listWhole isStream), .ok (hasLast rows)) := by
  induction h generalizing fuel position with
  | nil =>
      obtain rfl := hjunk.resolve_right Bool.false_ne_true
      exact unfold_done _ _ _
  | @cons front back row rows hrow _ ih =>
      obtain ⟨fuel, rfl⟩ : ∃ less, fuel = less + 1 :=
        Nat.exists_eq_succ_of_ne_zero (Nat.ne_of_gt (Nat.lt_of_lt_of_le (Nat.succ_pos _) hfuel))
      have hsome : front ≠ [] := fun hnil => needy_readWhole _ (hnil ▸ hrow)
      have hopen : (⟨front ++ back ++ junk, position⟩ : Cursor).isAtEnd = false := by
        simp [Cursor.isAtEnd, hsome]
      have hread := takes_readWhole hrow (back ++ junk) position
      rw [← List.append_assoc] at hread
      obtain ⟨hend, hlisted⟩ := run_readListedRow isStream hread
      rw [unfold, hopen]
      cases hlast : row.1.isLast with
      | true =>
          obtain ⟨behind, hnone⟩ := hend hlast
          rw [hnone, beforeLast_cons, hasLast_cons, hlast]
          rfl
      | false =>
          rw [hasLast_cons, hlast, Bool.false_or] at hjunk
          rw [hlisted hlast, beforeLast_cons, hasLast_cons, hlast, Bool.false_or]
          show (_ :: (unfold _ fuel _).1, (unfold _ fuel _).2) = _
          rw [ih (Nat.le_of_succ_le_succ hfuel) hjunk]
          rfl

/-! ### Groups of rows -/

/-- Rows packed into groups, one after the other. Behind the row after the last, in its group and behind it,
anything may come. -/
inductive Packing : Bytes → List (Row.Header × KeyEcho × Record) → Prop where
  | nil : Packing [] []
  | group {wire body rest : Bytes} {rows later : List (Row.Header × KeyEcho × Record)} :
      Group.Packs wire body → SpellsAll (some <$> readWhole) body rows → Packing rest later →
        Packing (wire ++ rest) (rows ++ later)
  | last {wire body junk rest : Bytes} {rows : List (Row.Header × KeyEcho × Record)} :
      Group.Packs wire (body ++ junk) → SpellsAll (some <$> readWhole) body rows →
        hasLast rows = true → Packing (wire ++ rest) rows

/-- However rows are packed, the same rows are harvested: those before the row after the last. -/
theorem Packing.harvest_eq (h : Packing bytes rows) :
    (harvest (readListedRow isStream) bytes).rows = (beforeLast rows).map (listWhole isStream) ∧
      (harvest (readListedRow isStream) bytes).Whole := by
  induction h with
  | nil =>
      rw [harvest_of_none (Group.first?_of_length_lt (by decide))]
      exact ⟨rfl, .inr ⟨rfl, rfl⟩⟩
  | @group wire body rest rows later hpacks hrows _ ih =>
      have hbody := unfold_listed isStream hrows (hrows.length_le needy_readWhole) (.inl rfl) 0
      rw [List.append_nil] at hbody
      have hfirst := hpacks.first?_eq rest
      rw [beforeLast_append]
      cases hlast : hasLast rows with
      | true =>
          rw [hlast] at hbody
          rw [harvest_of_end hfirst hbody (by simp), if_pos rfl, List.append_nil]
          exact ⟨rfl, .inl rfl⟩
      | false =>
          rw [hlast] at hbody
          rw [harvest_of_more hfirst hbody, if_neg Bool.false_ne_true, List.map_append, ← ih.1]
          exact ⟨rfl, ih.2⟩
  | @last wire body junk rest rows hpacks hrows hlast =>
      have hfuel : rows.length ≤ (body ++ junk).length := by
        rw [List.length_append]
        exact Nat.le_trans (hrows.length_le needy_readWhole) (Nat.le_add_right ..)
      have hbody : unfold (readListedRow isStream) _ ⟨body ++ junk, 0⟩ = _ :=
        unfold_listed isStream hrows hfuel (.inr hlast) 0
      rw [hlast] at hbody
      rw [harvest_of_end (hpacks.first?_eq rest) hbody (by simp)]
      exact ⟨rfl, .inl rfl⟩

/-! ### Reading a payload -/

/-- What reading comes to, given what the bytes hold: all rows of whole bytes, or only the first row. -/
inductive Listed (isStream : Bool) (harvest : Harvest Json.Value) :
    Except Fault (List Json.Value) → Prop where
  | all : isStream = true ∨ harvest.rows = [] → harvest.Whole → Listed isStream harvest (.ok harvest.rows)
  | first {row : Json.Value} {later : List Json.Value} :
      isStream = false → harvest.rows = row :: later → Listed isStream harvest (.ok [row])
  | failed {fault : Fault} : isStream = true ∨ harvest.rows = [] → ¬ harvest.Whole →
      Listed isStream harvest (.error fault)

/-- Rows of an earlier group come first, if they have not been enough. -/
theorem Listed.behind {harvest : Harvest Json.Value} {result : Except Fault (List Json.Value)}
    {earlier : List Json.Value} (h : Listed isStream harvest result)
    (hearlier : isStream = true ∨ earlier = []) :
    Listed isStream { harvest with rows := earlier ++ harvest.rows } ((earlier ++ ·) <$> result) := by
  have hrows : isStream = true ∨ harvest.rows = [] → isStream = true ∨ earlier ++ harvest.rows = [] := by
    rcases hearlier with hstream | rfl
    · exact fun _ => .inl hstream
    · exact id
  cases h with
  | all hall hwhole => exact .all (hrows hall) hwhole
  | failed hall hbroken => exact .failed (hrows hall) hbroken
  | @first row later halone hfirst =>
      obtain rfl := hearlier.resolve_left (halone ▸ Bool.false_ne_true)
      exact .first halone hfirst

section Payloads

open FrameReader

variable {start : List Arrival} {taken fuel : Nat} {consumed : Bytes} {reader final : FrameReader}
  {history : History} {result : Except Fault (List Json.Value)}

/-- How reading goes on behind a group when its rows have not been enough. -/
def goOn (isStream : Bool) (fuel : Nat) (rows : List Json.Value) :
    Except Fault Bool → Reading (List Json.Value)
  | .error fault => throw fault
  | .ok true => return rows
  | .ok false => return rows ++ (← readListing isStream fuel)

end Payloads

open Batch.Reassembly

end CommandLine
end RecordGateway
