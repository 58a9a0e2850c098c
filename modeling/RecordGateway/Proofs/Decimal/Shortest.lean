import RecordGateway.Decimal.Shortest

/-!
What the shortest decimal of a double is. It lies in the rounding interval of the double, no coarser grid has
a point there, and of the points of its own grid none is nearer (`Binary.isShortest_shortest`). A grid is
searched by looking at the two points on either side of the double: whatever point lies in the interval, one
of the two does too (`Binary.exists_onGrid?`). The grids that are looked at reach from one that is too coarse
for the interval to one that is too fine to miss it.
-/

namespace RecordGateway.Decimal
namespace Binary

/-! ### The rounding interval on a grid -/

/-- The unit of the rounding interval, measured on a grid. -/
def num (b : Binary) (e : Int) : Nat :=
  (gridUnit b.exponent e).1

/-- The step of a grid, in the same measure. -/
def den (b : Binary) (e : Int) : Nat :=
  (gridUnit b.exponent e).2

/-- The double itself. -/
def value (b : Binary) (e : Int) : Nat :=
  4 * b.significand * b.num e

/-- The lower end of the rounding interval. -/
def low (b : Binary) (e : Int) : Nat :=
  b.interval.1 * b.num e

/-- The upper end of the rounding interval. -/
def high (b : Binary) (e : Int) : Nat :=
  b.interval.2 * b.num e

/-- How far a point of a grid is from the double. -/
def distance (b : Binary) (k : Nat) (e : Int) : Nat :=
  ((b.value e : Int) - (k * b.den e : Nat)).natAbs

/-- The decimal rounds to the double, and of those with its last place it is as near as any. -/
structure IsNearest (b : Binary) (decimal : Scaled) : Prop where
  covered : b.covers decimal.digits decimal.exponent = true
  nearest : ∀ k, b.covers k decimal.exponent = true →
    b.distance decimal.digits decimal.exponent ≤ b.distance k decimal.exponent

/-- No decimal with fewer places rounds to the double. -/
structure IsShortest (b : Binary) (decimal : Scaled) : Prop extends IsNearest b decimal where
  coarsest : ∀ k e, b.covers k e = true → e ≤ decimal.exponent

variable {b : Binary} {tie : Tie} {k j : Nat} {e : Int} {decimal : Scaled}

theorem num_pos (b : Binary) (e : Int) : 0 < b.num e :=
  Nat.mul_pos (Nat.pow_pos (by decide)) (Nat.pow_pos (by decide))

theorem den_pos (b : Binary) (e : Int) : 0 < b.den e :=
  Nat.mul_pos (Nat.mul_pos (by decide) (Nat.pow_pos (by decide))) (Nat.pow_pos (by decide))

/-- The interval reaches a unit at least to either side, and does not reach down to zero. -/
theorem interval_bounds (hb : 0 < b.significand) (e : Int) :
    0 < b.low e ∧ b.low e + b.num e ≤ b.value e ∧ b.value e + 2 * b.num e = b.high e := by
  have hlow : ∃ gap, (gap = 1 ∨ gap = 2) ∧ b.interval.1 = 4 * b.significand - gap := by
    rw [interval]
    dsimp only
    split
    · exact ⟨1, .inl rfl, rfl⟩
    · exact ⟨2, .inr rfl, rfl⟩
  obtain ⟨gap, hgap, hends⟩ := hlow
  refine ⟨Nat.mul_pos (by omega) (b.num_pos e), ?_, (Nat.add_mul ..).symm⟩
  rw [low, value, ← Nat.succ_mul]
  exact Nat.mul_le_mul_right _ (by omega)

theorem covers_iff : b.covers k e = true ↔
    if b.significand % 2 = 0 then b.low e ≤ k * b.den e ∧ k * b.den e ≤ b.high e
    else b.low e < k * b.den e ∧ k * b.den e < b.high e := by
  rw [covers]
  change (if b.significand % 2 = 0 then decide (b.low e ≤ k * b.den e) && decide (k * b.den e ≤ b.high e)
    else decide (b.low e < k * b.den e) && decide (k * b.den e < b.high e)) = true ↔ _
  split <;> rw [Bool.and_eq_true, decide_eq_true_eq, decide_eq_true_eq]

theorem covers_of_lt (hlow : b.low e < k * b.den e) (hhigh : k * b.den e < b.high e) :
    b.covers k e = true := by
  rw [covers_iff]
  split
  · exact ⟨Nat.le_of_lt hlow, Nat.le_of_lt hhigh⟩
  · exact ⟨hlow, hhigh⟩

theorem le_of_covers (h : b.covers k e = true) : b.low e ≤ k * b.den e ∧ k * b.den e ≤ b.high e := by
  rw [covers_iff] at h
  split at h
  · exact h
  · exact ⟨Nat.le_of_lt h.1, Nat.le_of_lt h.2⟩

theorem pos_of_covers (hb : 0 < b.significand) (h : b.covers k e = true) : 0 < k := by
  have hlow := (interval_bounds hb e).1
  have hcovered := (le_of_covers h).1
  rcases Nat.eq_zero_or_pos k with rfl | hk
  · rw [Nat.zero_mul] at hcovered
    omega
  · exact hk

/-- A point between one of the interval and the double is of the interval too. -/
theorem covers_below (hb : 0 < b.significand) (h : b.covers j e = true) (hle : j ≤ k)
    (hk : k * b.den e ≤ b.value e) : b.covers k e = true := by
  obtain ⟨-, -, hhigh⟩ := interval_bounds hb e
  have hnum := b.num_pos e
  have hmore := Nat.mul_le_mul_right (b.den e) hle
  rw [covers_iff] at h ⊢
  split <;> rename_i heven
  · rw [if_pos heven] at h
    omega
  · rw [if_neg heven] at h
    omega

theorem covers_above (hb : 0 < b.significand) (h : b.covers j e = true) (hle : k ≤ j)
    (hk : b.value e ≤ k * b.den e) : b.covers k e = true := by
  obtain ⟨-, hlow, -⟩ := interval_bounds hb e
  have hnum := b.num_pos e
  have hmore := Nat.mul_le_mul_right (b.den e) hle
  rw [covers_iff] at h ⊢
  split <;> rename_i heven
  · rw [if_pos heven] at h
    omega
  · rw [if_neg heven] at h
    omega

/-! ### One grid -/

/-- The point of a grid that the double is not below. -/
def below (b : Binary) (e : Int) : Nat :=
  b.value e / b.den e

theorem below_bounds (b : Binary) (e : Int) :
    b.below e * b.den e ≤ b.value e ∧ b.value e < (b.below e + 1) * b.den e := by
  have hden := b.den_pos e
  refine ⟨Nat.div_mul_le_self _ _, ?_⟩
  rw [Nat.mul_comm]
  exact Nat.lt_mul_div_succ _ hden

theorem distance_below (b : Binary) (e : Int) :
    b.distance (b.below e) e = b.value e - b.below e * b.den e := by
  have hbelow := (below_bounds b e).1
  rw [distance]
  omega

theorem distance_above (b : Binary) (e : Int) :
    b.distance (b.below e + 1) e = (b.below e + 1) * b.den e - b.value e := by
  have habove := (below_bounds b e).2
  rw [distance]
  omega

/-- Whether the point below is taken when both are of the interval. -/
def prefersBelow (b : Binary) (tie : Tie) (e : Int) : Bool :=
  b.value e - b.below e * b.den e < (b.below e + 1) * b.den e - b.value e ||
    b.value e - b.below e * b.den e = (b.below e + 1) * b.den e - b.value e &&
      tie = .even && b.below e % 2 = 0

theorem onGrid?_eq : b.onGrid? tie e =
    match b.covers (b.below e) e && b.below e ≠ 0, b.covers (b.below e + 1) e with
    | true, true => some ⟨if b.prefersBelow tie e then b.below e else b.below e + 1, e⟩
    | true, false => some ⟨b.below e, e⟩
    | false, true => some ⟨b.below e + 1, e⟩
    | false, false => none :=
  rfl

/-- The nearer one of the two points on either side is taken, if both are of the interval. -/
theorem distance_preferred (b : Binary) (tie : Tie) (e : Int) :
    if b.prefersBelow tie e then b.distance (b.below e) e ≤ b.distance (b.below e + 1) e
    else b.distance (b.below e + 1) e ≤ b.distance (b.below e) e := by
  rw [distance_below, distance_above]
  split <;> rename_i hprefers
  · rw [prefersBelow, Bool.or_eq_true, Bool.and_eq_true, Bool.and_eq_true, decide_eq_true_eq,
      decide_eq_true_eq] at hprefers
    omega
  · rw [prefersBelow, Bool.or_eq_true, decide_eq_true_eq] at hprefers
    omega

/-- What is found on a grid: a point of the interval, and of the two on either side the nearer one. -/
theorem onGrid?_cases (hb : 0 < b.significand) (tie : Tie) (e : Int) :
    (b.onGrid? tie e = none ∧ b.covers (b.below e) e = false ∧ b.covers (b.below e + 1) e = false) ∨
      ∃ k, b.onGrid? tie e = some ⟨k, e⟩ ∧ b.covers k e = true ∧
        (b.covers (b.below e) e = true → b.distance k e ≤ b.distance (b.below e) e) ∧
        (b.covers (b.below e + 1) e = true → b.distance k e ≤ b.distance (b.below e + 1) e) := by
  have hpreferred := distance_preferred b tie e
  rw [onGrid?_eq]
  cases hbelow : b.covers (b.below e) e with
  | false =>
      cases habove : b.covers (b.below e + 1) e with
      | false => exact .inl ⟨rfl, rfl, rfl⟩
      | true => exact .inr ⟨_, rfl, habove, fun h => absurd h Bool.false_ne_true, fun _ => Nat.le_refl _⟩
  | true =>
      rw [decide_eq_true (Nat.ne_of_gt (pos_of_covers hb hbelow))]
      cases habove : b.covers (b.below e + 1) e with
      | false => exact .inr ⟨_, rfl, hbelow, fun _ => Nat.le_refl _, fun h => absurd h Bool.false_ne_true⟩
      | true =>
          refine .inr ⟨_, rfl, ?_⟩
          split <;> rename_i hprefers
          · rw [if_pos hprefers] at hpreferred
            exact ⟨hbelow, fun _ => Nat.le_refl _, fun _ => hpreferred⟩
          · rw [if_neg hprefers] at hpreferred
            exact ⟨habove, fun _ => hpreferred, fun _ => Nat.le_refl _⟩

/-- Of the points of the interval on the one side of the double the next one is the nearest. -/
theorem covers_next (hb : 0 < b.significand) (h : b.covers k e = true) :
    (b.covers (b.below e) e = true ∧ b.distance (b.below e) e ≤ b.distance k e) ∨
      (b.covers (b.below e + 1) e = true ∧ b.distance (b.below e + 1) e ≤ b.distance k e) := by
  obtain ⟨hbelow, habove⟩ := below_bounds b e
  rcases Nat.lt_or_ge (b.below e) k with hmore | hless
  · have hfar : (b.below e + 1) * b.den e ≤ k * b.den e := Nat.mul_le_mul_right _ hmore
    refine .inr ⟨covers_above hb h hmore (Nat.le_of_lt habove), ?_⟩
    rw [distance, distance]
    omega
  · have hfar := Nat.mul_le_mul_right (b.den e) hless
    refine .inl ⟨covers_below hb h hless hbelow, ?_⟩
    rw [distance, distance]
    omega

theorem exists_onGrid? (hb : 0 < b.significand) (tie : Tie) (h : b.covers k e = true) :
    ∃ decimal, b.onGrid? tie e = some decimal := by
  rcases onGrid?_cases hb tie e with ⟨-, hbelow, habove⟩ | ⟨j, hfound, -⟩
  · rcases covers_next hb h with ⟨hcovered, -⟩ | ⟨hcovered, -⟩
    · rw [hbelow] at hcovered
      cases hcovered
    · rw [habove] at hcovered
      cases hcovered
  · exact ⟨_, hfound⟩

/-- A decimal found on a grid is of the interval, and none on that grid is nearer. -/
theorem onGrid?_spec (hb : 0 < b.significand) (h : b.onGrid? tie e = some decimal) :
    decimal.exponent = e ∧ b.IsNearest decimal := by
  rcases onGrid?_cases hb tie e with ⟨hnone, -⟩ | ⟨j, hfound, hcovered, hbelow, habove⟩
  · rw [hnone] at h
    cases h
  rw [hfound] at h
  obtain rfl := Option.some.inj h
  refine ⟨rfl, hcovered, fun k hk => ?_⟩
  rcases covers_next hb hk with ⟨hnext, hnear⟩ | ⟨hnext, hnear⟩
  · exact Nat.le_trans (hbelow hnext) hnear
  · exact Nat.le_trans (habove hnext) hnear

/-! ### From coarse to fine -/

/-- The decimal is what is looked for among the grids from the given one down. -/
structure IsFound (b : Binary) (e : Int) (decimal : Scaled) : Prop extends IsNearest b decimal where
  coarsest : ∀ k higher, higher ≤ e → b.covers k higher = true → higher ≤ decimal.exponent

theorem isFound_of_onGrid? (hb : 0 < b.significand) (h : b.onGrid? tie e = some decimal) :
    b.IsFound e decimal := by
  obtain ⟨rfl, hnearest⟩ := onGrid?_spec hb h
  exact { hnearest with coarsest := fun _ _ hle _ => hle }

/-- The search ends before its fuel, because the finest grid cannot miss the interval. -/
theorem isFound_firstOnGrid (hb : 0 < b.significand) (tie : Tie) {fuel : Nat}
    (hlast : ∃ k, b.covers k (e - fuel) = true) : b.IsFound e (b.firstOnGrid tie fuel e) := by
  induction fuel generalizing e with
  | zero =>
      obtain ⟨k, hk⟩ := hlast
      rw [Int.natCast_zero, Int.sub_zero] at hk
      obtain ⟨decimal, hfound⟩ := exists_onGrid? hb tie hk
      rw [firstOnGrid, hfound]
      exact isFound_of_onGrid? hb hfound
  | succ fuel ih =>
      rw [firstOnGrid]
      cases hfound : b.onGrid? tie e with
      | some decimal => exact isFound_of_onGrid? hb hfound
      | none =>
          have hlater : b.IsFound (e - 1) (b.firstOnGrid tie fuel (e - 1)) := by
            refine ih ?_
            rwa [Int.natCast_succ, Int.add_comm, ← Int.sub_sub] at hlast
          refine { hlater with coarsest := fun k higher hle hk => ?_ }
          rcases Int.lt_or_eq_of_le hle with hless | rfl
          · exact hlater.coarsest k higher (Int.le_sub_one_of_lt hless) hk
          · obtain ⟨decimal, hother⟩ := exists_onGrid? hb tie hk
            rw [hfound] at hother
            cases hother

/-- A grid finer than the unit of the interval has a point there. -/
theorem exists_covers (hb : 0 < b.significand) (hfine : b.den e ≤ b.num e) : ∃ k, b.covers k e = true := by
  obtain ⟨-, hlow, hhigh⟩ := interval_bounds hb e
  obtain ⟨hbelow, habove⟩ := below_bounds b e
  have hnum := b.num_pos e
  rw [Nat.succ_mul] at habove
  exact ⟨b.below e, covers_of_lt (by omega) (by omega)⟩

/-- The higher a grid is, the greater is its step. -/
theorem den_mul_num_le (b : Binary) {higher : Int} (h : e ≤ higher) :
    b.den e * b.num higher ≤ b.den higher * b.num e := by
  have hpow : Nat.pow 10 e.toNat * Nat.pow 10 (-higher).toNat ≤
      Nat.pow 10 higher.toNat * Nat.pow 10 (-e).toNat := by
    change 10 ^ _ * 10 ^ _ ≤ 10 ^ _ * 10 ^ _
    rw [← Nat.pow_add, ← Nat.pow_add]
    exact Nat.pow_le_pow_right (by decide) (by omega)
  have hscaled := Nat.mul_le_mul_left (4 * Nat.pow 2 (-b.exponent).toNat * Nat.pow 2 b.exponent.toNat) hpow
  change 4 * Nat.pow 2 (-b.exponent).toNat * Nat.pow 10 e.toNat *
      (Nat.pow 2 b.exponent.toNat * Nat.pow 10 (-higher).toNat) ≤
    4 * Nat.pow 2 (-b.exponent).toNat * Nat.pow 10 higher.toNat *
      (Nat.pow 2 b.exponent.toNat * Nat.pow 10 (-e).toNat)
  rw [Nat.mul_mul_mul_comm _ (Nat.pow 10 e.toNat), Nat.mul_mul_mul_comm _ (Nat.pow 10 higher.toNat)]
  exact hscaled

/-- A grid whose step is greater than the interval's upper end has no point there, nor has any above it. -/
theorem lt_of_covers (hb : 0 < b.significand) {coarse : Int} (hcoarse : b.high coarse < b.den coarse)
    (h : b.covers k e = true) : e < coarse := by
  have hk := pos_of_covers hb h
  have hcovered := (le_of_covers h).2
  refine Int.not_le.mp fun hle => ?_
  have hstep := Nat.le_trans (Nat.le_mul_of_pos_left (b.den e) hk) hcovered
  have hless := Nat.mul_lt_mul_of_pos_right hcoarse (b.num_pos e)
  have hmore := Nat.mul_le_mul_right (b.num coarse) hstep
  have hsteps := den_mul_num_le b hle
  rw [high, Nat.mul_right_comm] at hless
  rw [high] at hmore
  omega

/-! ### Doubles -/

/-- The coarsest grid that is looked at. -/
def top (exponent : Int) : Int :=
  (exponent + 54) * 30103 / 100000 + 1

/-- The exponents of doubles, from the least on. -/
def exponentAt (index : Fin 2046) : Int :=
  index.val - 1074

theorem finest_fine : ∀ index : Fin 2046,
    let e := top (exponentAt index) - 40
    (gridUnit (exponentAt index) e).2 ≤ (gridUnit (exponentAt index) e).1 := by
  decide +kernel

theorem beyond_top_coarse : ∀ index : Fin 2046,
    let e := top (exponentAt index) + 1
    (8 * leadingBit + 2) * (gridUnit (exponentAt index) e).1 < (gridUnit (exponentAt index) e).2 := by
  decide +kernel

end Binary

theorem Number.bounds_of_ofBits {bits : UInt64} {negative : Bool} {magnitude : Binary}
    (h : ofBits bits = .finite negative magnitude) :
    0 < magnitude.significand ∧ magnitude.significand < 2 * leadingBit ∧
      ∃ index, magnitude.exponent = Binary.exponentAt index := by
  have hfraction : bits.toNat % leadingBit < leadingBit := Nat.mod_lt _ (by decide)
  have hfield : bits.toNat / leadingBit % 2048 < 2048 := Nat.mod_lt _ (by decide)
  unfold ofBits at h
  dsimp only at h
  split at h
  · split at h <;> cases h
  next hfinite =>
  split at h
  · split at h
    · cases h
    · next hsome =>
        obtain ⟨rfl, rfl⟩ := Number.finite.inj h
        exact ⟨Nat.pos_of_ne_zero hsome, Nat.lt_of_lt_of_le hfraction (by decide), ⟨0, by decide⟩, rfl⟩
  · next hnormal =>
      obtain ⟨rfl, rfl⟩ := Number.finite.inj h
      refine ⟨Nat.add_pos_left (by decide) _, ?_, ⟨bits.toNat / leadingBit % 2048 - 1, by omega⟩, ?_⟩
      · rw [Nat.two_mul]
        exact Nat.add_lt_add_left hfraction _
      · rw [Binary.exponentAt]
        dsimp only
        omega

/-- What is computed for a double is its shortest decimal. -/
theorem Binary.isShortest_shortest {bits : UInt64} {negative : Bool} {b : Binary}
    (h : Number.ofBits bits = .finite negative b) (tie : Tie) : b.IsShortest (b.shortest tie) := by
  obtain ⟨hpos, hless, index, hindex⟩ := Number.bounds_of_ofBits h
  have hfine : b.den (top b.exponent - 40) ≤ b.num (top b.exponent - 40) := by
    rw [den, num, hindex]
    exact finest_fine index
  have hcoarse : b.high (top b.exponent + 1) < b.den (top b.exponent + 1) := by
    have hbeyond := beyond_top_coarse index
    rw [← hindex] at hbeyond
    refine Nat.lt_of_le_of_lt (Nat.mul_le_mul_right _ ?_) hbeyond
    show 4 * b.significand + 2 ≤ _
    omega
  have hfound : b.IsFound (top b.exponent) (b.shortest tie) :=
    isFound_firstOnGrid hpos tie (exists_covers hpos hfine)
  refine { hfound with coarsest := fun k e hk => hfound.coarsest k e ?_ hk }
  exact Int.le_of_lt_add_one (lt_of_covers hpos hcoarse hk)

end RecordGateway.Decimal
