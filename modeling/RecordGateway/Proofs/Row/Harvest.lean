import RecordGateway.Proofs.Group.Packing
import RecordGateway.Proofs.Row.Extent

/-!
The rows that the bytes of an answer hold. `harvest` looks at bytes alone, without frames and without
waiting: it reads group after group as long as whole groups are there, and row after row up to the
row that ends them. What more bytes bring is only added to it (`harvest_append`), so the rows of the
bytes that have arrived are the first of the rows of all bytes.
-/

namespace RecordGateway.Row

variable {α β : Type}

/-- What bytes hold: rows, how these came to an end, and the bytes after the groups of the rows. As
long as only whole groups are missing the ending is `.ok false`. -/
structure Harvest (α : Type) where
  rows : List α := []
  ending : Except Fault Bool := .ok false
  rest : Bytes

/-- The rows in the whole groups with which the bytes begin; `fuel` bounds the number of groups. -/
def harvestFrom (step : Reader (Option α)) : Nat → Bytes → Harvest α
  | 0, bytes => { rest := bytes }
  | fuel + 1, bytes =>
    match Group.first? bytes with
    | none => { rest := bytes }
    | some (body, rest) =>
      match unfold step body.length { rest := body } with
      | (rows, .ok false) =>
        let later := harvestFrom step fuel rest
        { later with rows := rows ++ later.rows }
      | (rows, ending) => { rows, ending, rest }

def harvest (step : Reader (Option α)) (bytes : Bytes) : Harvest α :=
  harvestFrom step bytes.length bytes

/-- The rows are all there: they come to an end of their own, or with the last byte. -/
def Harvest.Whole (harvest : Harvest α) : Prop :=
  harvest.ending = .ok true ∨ harvest.ending = .ok false ∧ harvest.rest = []

variable {step : Reader (Option α)} {bytes body rest : Bytes} {rows : List α}

/-- Every group takes bytes away, so more fuel than bytes changes nothing. -/
theorem harvestFrom_eq {fuel : Nat} (hfuel : bytes.length ≤ fuel) :
    harvestFrom step fuel bytes = harvest step bytes := by
  have hsame : ∀ (fuel fuel' : Nat) (bytes : Bytes), bytes.length ≤ fuel → bytes.length ≤ fuel' →
      harvestFrom step fuel bytes = harvestFrom step fuel' bytes := by
    intro fuel
    induction fuel with
    | zero =>
        intro fuel' bytes hnil _
        obtain rfl := List.length_eq_zero_iff.mp (Nat.le_zero.mp hnil)
        cases fuel' <;> rfl
    | succ fuel ih =>
        intro fuel' bytes hfuel hfuel'
        cases fuel' with
        | zero =>
            obtain rfl := List.length_eq_zero_iff.mp (Nat.le_zero.mp hfuel')
            rfl
        | succ fuel' =>
            rw [harvestFrom, harvestFrom]
            cases hfirst : Group.first? bytes with
            | none => rfl
            | some found =>
                have hless := Group.length_of_first? (Prod.eta found ▸ hfirst)
                have hheader : 0 < Group.headerLength := by decide
                dsimp only
                rw [ih fuel' found.2 (by omega) (by omega)]
  exact hsame _ _ _ hfuel (Nat.le_refl _)

theorem harvest_of_none (hfirst : Group.first? bytes = none) :
    harvest step bytes = { rest := bytes } := by
  rw [← harvestFrom_eq (Nat.le_succ _), harvestFrom, hfirst]

theorem harvest_of_more (hfirst : Group.first? bytes = some (body, rest))
    (hrows : unfold step body.length { rest := body } = (rows, .ok false)) :
    harvest step bytes =
      { harvest step rest with rows := rows ++ (harvest step rest).rows } := by
  have hless := Group.length_of_first? hfirst
  rw [← harvestFrom_eq (Nat.le_succ _), harvestFrom, hfirst]
  simp only [hrows, harvestFrom_eq (show rest.length ≤ bytes.length by omega)]

theorem harvest_of_end {ending : Except Fault Bool} (hfirst : Group.first? bytes = some (body, rest))
    (hrows : unfold step body.length { rest := body } = (rows, ending)) (hending : ending ≠ .ok false) :
    harvest step bytes = { rows, ending, rest } := by
  rw [← harvestFrom_eq (Nat.le_succ _), harvestFrom, hfirst]
  simp only [hrows]

/-- More bytes only add rows, and none once the rows have come to an end. -/
theorem harvest_append (bytes more : Bytes) :
    (harvest step bytes).rows <+: (harvest step (bytes ++ more)).rows ∧
      ((harvest step bytes).ending ≠ .ok false →
        (harvest step (bytes ++ more)).rows = (harvest step bytes).rows ∧
          (harvest step (bytes ++ more)).ending = (harvest step bytes).ending) := by
  have hall : ∀ (fuel : Nat) (bytes : Bytes), bytes.length ≤ fuel →
      (harvest step bytes).rows <+: (harvest step (bytes ++ more)).rows ∧
        ((harvest step bytes).ending ≠ .ok false →
          (harvest step (bytes ++ more)).rows = (harvest step bytes).rows ∧
            (harvest step (bytes ++ more)).ending = (harvest step bytes).ending) := by
    intro fuel
    induction fuel with
    | zero =>
        intro bytes hnil
        obtain rfl := List.length_eq_zero_iff.mp (Nat.le_zero.mp hnil)
        exact ⟨List.nil_prefix, fun h => absurd rfl h⟩
    | succ fuel ih =>
        intro bytes hfuel
        cases hfirst : Group.first? bytes with
        | none =>
            rw [harvest_of_none hfirst]
            exact ⟨List.nil_prefix, fun h => absurd rfl h⟩
        | some found =>
            obtain ⟨body, rest⟩ := found
            have hless := Group.length_of_first? hfirst
            have hheader : 0 < Group.headerLength := by decide
            have hmore := Group.first?_append hfirst more
            rcases hrows : unfold step body.length { rest := body } with ⟨rows, ending⟩
            by_cases hending : ending = .ok false
            · subst hending
              obtain ⟨hbegins, hend⟩ := ih rest (by omega)
              rw [harvest_of_more hfirst hrows, harvest_of_more hmore hrows]
              refine ⟨(List.prefix_append_right_inj rows).mpr hbegins, fun h => ?_⟩
              exact ⟨congrArg (rows ++ ·) (hend h).1, (hend h).2⟩
            · rw [harvest_of_end hfirst hrows hending, harvest_of_end hmore hrows hending]
              exact ⟨List.prefix_rfl, fun _ => ⟨rfl, rfl⟩⟩
  exact hall bytes.length bytes (Nat.le_refl _)

/-! ### Rows one by one -/

theorem unfold_map (f : α → β) (step : Reader (Option α)) (fuel : Nat) (cursor : Cursor) :
    unfold (Option.map f <$> step) fuel cursor =
      ((unfold step fuel cursor).1.map f, (unfold step fuel cursor).2) := by
  induction fuel generalizing cursor with
  | zero => rfl
  | succ fuel ih =>
      rw [unfold, unfold, map_eq_pure_bind, run_bind_eq]
      split
      · rfl
      · rcases step.run.run cursor with ⟨fault | row, final⟩
        · rfl
        · cases row with
          | none => rfl
          | some row =>
              rw [map_eq_pure_bind] at ih
              exact congrArg (fun later => (f row :: later.1, later.2)) (ih final)

theorem harvest_map (f : α → β) (step : Reader (Option α)) (bytes : Bytes) :
    harvest (Option.map f <$> step) bytes =
      { rows := (harvest step bytes).rows.map f, ending := (harvest step bytes).ending
        rest := (harvest step bytes).rest } := by
  have hall : ∀ (fuel : Nat) (bytes : Bytes), harvestFrom (Option.map f <$> step) fuel bytes =
      { rows := (harvestFrom step fuel bytes).rows.map f
        ending := (harvestFrom step fuel bytes).ending
        rest := (harvestFrom step fuel bytes).rest } := by
    intro fuel
    induction fuel with
    | zero => exact fun _ => rfl
    | succ fuel ih =>
        intro bytes
        rw [harvestFrom, harvestFrom]
        cases Group.first? bytes with
        | none => rfl
        | some found =>
            dsimp only
            rw [unfold_map, ih]
            rcases unfold step found.1.length { rest := found.1 } with ⟨rows, fault | ended⟩
            · rfl
            · cases ended with
              | true => rfl
              | false => simp
  exact hall _ _

/-- What every row satisfies that is read, all rows of a body satisfy. -/
theorem forall_mem_unfold {step : Reader (Option α)} {P : α → Prop}
    (hstep : ∀ cursor row final, step.run.run cursor = (.ok (some row), final) → P row)
    (fuel : Nat) (cursor : Cursor) : ∀ row ∈ (unfold step fuel cursor).1, P row := by
  induction fuel generalizing cursor with
  | zero => exact fun _ hmem => absurd hmem List.not_mem_nil
  | succ fuel ih =>
      rw [unfold]
      split
      · exact fun _ hmem => absurd hmem List.not_mem_nil
      · split
        · exact fun _ hmem => absurd hmem List.not_mem_nil
        · exact fun _ hmem => absurd hmem List.not_mem_nil
        · next row final hrow =>
            rw [List.forall_mem_cons]
            exact ⟨hstep _ _ _ hrow, ih final⟩

theorem forall_mem_harvest {step : Reader (Option α)} {P : α → Prop}
    (hstep : ∀ cursor row final, step.run.run cursor = (.ok (some row), final) → P row)
    (bytes : Bytes) : ∀ row ∈ (harvest step bytes).rows, P row := by
  have hall : ∀ (fuel : Nat) (bytes : Bytes), ∀ row ∈ (harvestFrom step fuel bytes).rows, P row := by
    intro fuel
    induction fuel with
    | zero => exact fun _ _ hmem => absurd hmem List.not_mem_nil
    | succ fuel ih =>
        intro bytes
        rw [harvestFrom]
        split
        · exact fun _ hmem => absurd hmem List.not_mem_nil
        · next body rest _ =>
            have hbody := forall_mem_unfold hstep body.length { rest := body }
            split
            · next rows hrows =>
                rw [hrows] at hbody
                rw [List.forall_mem_append]
                exact ⟨hbody, ih rest⟩
            · next rows ending _ hrows =>
                rw [hrows] at hbody
                exact hbody
  exact hall _ _

end RecordGateway.Row
