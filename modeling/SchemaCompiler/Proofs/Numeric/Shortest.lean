import SchemaCompiler.Proofs.Numeric.Interval

/-!
# The shortest decimal text

The digits that a double is written with lie in its rounding interval, so they are rounded to the
double again (`Binary64.contains_shortest`): the seventeenth grid is so fine that one of its two
points around the double must lie in the interval.  A power of ten in the interval is written as
itself (`Binary64.shortest_value_of_power`), because it lies on the first grid that is searched and
no other point of this grid is as near.
-/

namespace SchemaCompiler

namespace DecimalDigits

/-! ### Digits -/

/-- The value of decimal digits. -/
def value (d : DecimalDigits) : ℚ := d.digits * 10 ^ d.exponent

/-- The value is no less than zero. -/
lemma value_nonneg (d : DecimalDigits) : 0 ≤ d.value :=
  mul_nonneg (Nat.cast_nonneg _) (zpow_nonneg (by norm_num) _)

/-- Zeros that move to the exponent do not change the value. -/
lemma value_strip (fuel digits : Nat) (exponent : ℤ) :
    (strip fuel digits exponent).value = digits * 10 ^ exponent := by
  induction fuel generalizing digits exponent with
  | zero => rfl
  | succ fuel ih =>
    rw [strip]
    split
    · next hzero =>
      have hdigits : digits = digits / 10 * 10 := by omega
      rw [ih, zpow_add_one₀ (by norm_num)]
      conv_rhs => rw [hdigits]
      push_cast
      ring
    · rfl

/-- A number lies between the powers of ten that its length tells. -/
lemma length_bounds {n : Nat} (hn : 0 < n) :
    ∃ places, length n = places + 1 ∧ 10 ^ places ≤ n ∧ n < 10 ^ (places + 1) := by
  induction n using Nat.strongRecOn with
  | ind n ih =>
    rw [length]
    by_cases hsmall : n < 10
    · exact ⟨0, if_pos hsmall, hn, hsmall⟩
    · obtain ⟨places, hlength, hlower, hupper⟩ := ih (n / 10) (by omega) (by omega)
      refine ⟨places + 1, ?_, ?_, ?_⟩
      · rw [if_neg hsmall, hlength]
      · rw [Nat.pow_succ]
        omega
      · rw [Nat.pow_succ]
        omega

end DecimalDigits

namespace Binary64

variable {x : Binary64} {digits : Nat} {exponent : ℤ}

/-! ### Grids -/

/-- The fraction of a point of a grid. -/
lemma gridPoint_eq (digits : Nat) (exponent : ℤ) : 0 < (gridPoint digits exponent).2 ∧
    ((gridPoint digits exponent).1 : ℚ) / (gridPoint digits exponent).2 =
      digits * 10 ^ exponent := by
  have hpower : Nat.pow 10 exponent.natAbs = 10 ^ exponent.natAbs := rfl
  unfold gridPoint
  rw [hpower]
  split
  · next hneg =>
    have hexponent : exponent = -(exponent.natAbs : ℤ) := by omega
    refine ⟨Nat.pow_pos (by norm_num), ?_⟩
    conv_rhs => rw [hexponent]
    rw [zpow_neg, zpow_natCast, Nat.cast_pow, Nat.cast_ofNat, div_eq_mul_inv]
  · next hnonneg =>
    have hexponent : exponent = (exponent.natAbs : ℤ) := by omega
    refine ⟨Nat.one_pos, ?_⟩
    conv_rhs => rw [hexponent]
    rw [zpow_natCast, Nat.cast_mul, Nat.cast_pow, Nat.cast_ofNat, Nat.cast_one, div_one]

/-- An interval admits the decimals that lie in it. -/
lemma admits_iff_contains (interval : RoundingInterval) (digits : Nat) (exponent : ℤ) :
    interval.admits digits exponent = true ↔ interval.Contains (digits * 10 ^ exponent) := by
  obtain ⟨hden, hpoint⟩ := gridPoint_eq digits exponent
  rw [← hpoint, ← holds_iff_contains interval hden]
  unfold RoundingInterval.admits RoundingInterval.Holds
  generalize gridPoint digits exponent = point
  obtain ⟨num, den⟩ := point
  have hunits : num * (4 * unit) = 4 * (num * unit) := Nat.mul_left_comm _ _ _
  dsimp only
  rw [hunits]
  split
  · rw [Bool.and_eq_true, decide_eq_true_eq, decide_eq_true_eq]
  · rw [Bool.and_eq_true, decide_eq_true_eq, decide_eq_true_eq]

/-- A quotient lies between its floor and the next integer. -/
lemma cast_div_bounds (num : Nat) {den : Nat} (hden : 0 < den) :
    ((num / den : Nat) : ℚ) ≤ (num : ℚ) / den ∧
      (num : ℚ) / den < ((num / den + 1 : Nat) : ℚ) := by
  have hden' : (0 : ℚ) < den := Nat.cast_pos.mpr hden
  rw [le_div_iff₀ hden', div_lt_iff₀ hden', ← Nat.cast_mul, ← Nat.cast_mul, Nat.cast_le,
    Nat.cast_lt]
  exact ⟨Nat.div_mul_le_self num den, Nat.lt_mul_of_div_lt (Nat.lt_succ_self _) hden⟩

/-- The lower neighbour on a grid is the floor of the size in steps of the grid. -/
lemma exists_neighbours_eq (x : Binary64) (exponent : ℤ) : ∃ num den : Nat, 0 < den ∧
    x.neighbours exponent = (num / den, num / den + 1) ∧ x.size = num / den * 10 ^ exponent := by
  have hpower : Nat.pow 10 exponent.natAbs = 10 ^ exponent.natAbs := rfl
  have hten : (10 : ℚ) ^ exponent.natAbs ≠ 0 := by positivity
  unfold neighbours
  dsimp only
  rw [hpower]
  by_cases hneg : exponent < 0
  · have hexponent : exponent = -(exponent.natAbs : ℤ) := by omega
    refine ⟨x.magnitude * 10 ^ exponent.natAbs, unit, unit_pos, by rw [if_pos hneg], ?_⟩
    conv_rhs => rw [hexponent]
    rw [zpow_neg, zpow_natCast, Int.natAbs_neg, Int.natAbs_natCast, size, Nat.cast_mul,
      Nat.cast_pow, Nat.cast_ofNat, mul_div_right_comm, mul_inv_cancel_right₀ hten]
  · have hexponent : exponent = (exponent.natAbs : ℤ) := by omega
    refine ⟨x.magnitude, unit * 10 ^ exponent.natAbs,
      Nat.mul_pos unit_pos (Nat.pow_pos (by norm_num)), by rw [if_neg hneg], ?_⟩
    conv_rhs => rw [hexponent]
    rw [zpow_natCast, Int.natAbs_natCast, size, Nat.cast_mul, Nat.cast_pow, Nat.cast_ofNat,
      div_mul_eq_div_div, div_mul_cancel₀ _ hten]

/-- The neighbours on a grid lie around the size. -/
lemma neighbours_bounds (x : Binary64) (exponent : ℤ) :
    ((x.neighbours exponent).1 : ℚ) * 10 ^ exponent ≤ x.size ∧
      x.size < ((x.neighbours exponent).1 + 1 : Nat) * 10 ^ exponent ∧
      (x.neighbours exponent).2 = (x.neighbours exponent).1 + 1 := by
  obtain ⟨num, den, hden, hneighbours, hsize⟩ := x.exists_neighbours_eq exponent
  obtain ⟨hlower, hupper⟩ := cast_div_bounds num hden
  have hpower : (0 : ℚ) < 10 ^ exponent := zpow_pos (by norm_num) exponent
  rw [hneighbours, hsize]
  exact ⟨mul_le_mul_of_nonneg_right hlower hpower.le, mul_lt_mul_of_pos_right hupper hpower, rfl⟩

/-- The lower neighbour on a grid is the last point up to the size. -/
lemma neighbours_fst_eq {x : Binary64} {exponent : ℤ} {digits : Nat}
    (hlower : (digits : ℚ) * 10 ^ exponent ≤ x.size)
    (hupper : x.size < (digits + 1 : Nat) * 10 ^ exponent) :
    (x.neighbours exponent).1 = digits := by
  obtain ⟨hfloor, hnext, -⟩ := x.neighbours_bounds exponent
  have hpower : (0 : ℚ) < 10 ^ exponent := zpow_pos (by norm_num) exponent
  have hle : (x.neighbours exponent).1 < digits + 1 :=
    Nat.cast_lt.mp (lt_of_mul_lt_mul_right (hfloor.trans_lt hupper) hpower.le)
  have hge : digits < (x.neighbours exponent).1 + 1 :=
    Nat.cast_lt.mp (lt_of_mul_lt_mul_right (hlower.trans_lt hnext) hpower.le)
  omega

/-- A grid is decided by which of the two neighbours the interval admits. -/
lemma onGrid?_eq (x : Binary64) (exponent : ℤ) : x.onGrid? exponent =
    match x.roundingInterval.admits (x.neighbours exponent).1 exponent,
      x.roundingInterval.admits (x.neighbours exponent).2 exponent with
    | true, true => some ⟨if x.upperNearer (x.neighbours exponent).1 exponent
        then (x.neighbours exponent).2 else (x.neighbours exponent).1, exponent⟩
    | true, false => some ⟨(x.neighbours exponent).1, exponent⟩
    | false, true => some ⟨(x.neighbours exponent).2, exponent⟩
    | false, false => none := rfl

/-- What is found on a grid lies in the interval. -/
lemma contains_of_onGrid? {d : DecimalDigits} (h : x.onGrid? exponent = some d) :
    x.roundingInterval.Contains d.value := by
  rw [onGrid?_eq] at h
  split at h
  · next hbelow habove =>
    cases h
    split
    · exact (admits_iff_contains _ _ _).mp habove
    · exact (admits_iff_contains _ _ _).mp hbelow
  · next hbelow habove =>
    cases h
    exact (admits_iff_contains _ _ _).mp hbelow
  · next hbelow habove =>
    cases h
    exact (admits_iff_contains _ _ _).mp habove
  · cases h

/-- Nothing is found on a grid if neither neighbour lies in the interval. -/
lemma not_contains_of_onGrid? (h : x.onGrid? exponent = none) :
    ¬x.roundingInterval.Contains ((x.neighbours exponent).1 * 10 ^ exponent) ∧
      ¬x.roundingInterval.Contains ((x.neighbours exponent).2 * 10 ^ exponent) := by
  rw [← admits_iff_contains, ← admits_iff_contains]
  rw [onGrid?_eq] at h
  split at h
  · cases h
  · cases h
  · cases h
  · next hbelow habove =>
    rw [hbelow, habove]
    exact ⟨Bool.false_ne_true, Bool.false_ne_true⟩

/-- The lower neighbour is found if it alone lies in the interval. -/
lemma onGrid?_eq_lower
    (hlower : x.roundingInterval.Contains ((x.neighbours exponent).1 * 10 ^ exponent))
    (hupper : ¬x.roundingInterval.Contains ((x.neighbours exponent).2 * 10 ^ exponent)) :
    x.onGrid? exponent = some ⟨(x.neighbours exponent).1, exponent⟩ := by
  rw [← admits_iff_contains] at hlower hupper
  rw [onGrid?_eq, hlower, Bool.eq_false_of_not_eq_true hupper]

/-- The upper neighbour is found if it alone lies in the interval. -/
lemma onGrid?_eq_upper
    (hlower : ¬x.roundingInterval.Contains ((x.neighbours exponent).1 * 10 ^ exponent))
    (hupper : x.roundingInterval.Contains ((x.neighbours exponent).2 * 10 ^ exponent)) :
    x.onGrid? exponent = some ⟨(x.neighbours exponent).2, exponent⟩ := by
  rw [← admits_iff_contains] at hlower hupper
  rw [onGrid?_eq, hupper, Bool.eq_false_of_not_eq_true hlower]

/-! ### The search -/

/-- A search that meets a grid with a point in the interval finds one. -/
lemma contains_searchGrids {fuel step : Nat} (hstep : step < fuel)
    (h : x.onGrid? (exponent - step) ≠ none) :
    x.roundingInterval.Contains (x.searchGrids fuel exponent).value := by
  induction fuel generalizing exponent step with
  | zero => exact absurd hstep (Nat.not_lt_zero step)
  | succ fuel ih =>
    rw [searchGrids]
    cases hfound : x.onGrid? exponent with
    | some d => exact contains_of_onGrid? hfound
    | none =>
      rw [Option.getD_none]
      cases step with
      | zero =>
        rw [Nat.cast_zero, sub_zero] at h
        exact absurd hfound h
      | succ step =>
        have hnext : exponent - ((step + 1 : Nat) : ℤ) = exponent - 1 - step := by
          push_cast
          ring
        rw [hnext] at h
        exact ih (Nat.lt_of_succ_lt_succ hstep) h

/-- So many places after the point show a digit of every double other than zero. -/
lemma unit_le_ten_pow : unit ≤ Nat.pow 10 344 := by decide +kernel

/-- The leading exponent tells the powers of ten around the size. -/
lemma leadingExponent_bounds (hx : 0 < x.significand) :
    (10 : ℚ) ^ x.leadingExponent ≤ x.size ∧ x.size < 10 ^ (x.leadingExponent + 1) := by
  have hshown := unit_le_ten_pow
  have hpower : ∀ places, Nat.pow 10 places = 10 ^ places := fun _ => rfl
  have hnext : (345 : ℤ) = ((344 : Nat) : ℤ) + 1 := rfl
  have hmagnitude : 0 < x.magnitude := Nat.mul_pos hx (Nat.two_pow_pos _)
  unfold leadingExponent
  rw [hnext]
  generalize 344 = shown at hshown ⊢
  rw [hpower] at hshown ⊢
  have hfloor : 0 < x.magnitude * 10 ^ shown / unit :=
    Nat.div_pos (hshown.trans (Nat.le_mul_of_pos_left _ hmagnitude)) unit_pos
  have hten : (0 : ℚ) < 10 ^ shown := by positivity
  obtain ⟨hlower, hupper⟩ := cast_div_bounds (x.magnitude * 10 ^ shown) unit_pos
  obtain ⟨places, hlength, hleast, hgreatest⟩ := DecimalDigits.length_bounds hfloor
  have hsize : ((x.magnitude * 10 ^ shown : Nat) : ℚ) / unit = x.size * 10 ^ shown := by
    rw [size, Nat.cast_mul, Nat.cast_pow, Nat.cast_ofNat, div_mul_eq_mul_div]
  have hexponent : ((places + 1 : Nat) : ℤ) - ((shown : ℤ) + 1) = (places : ℤ) - shown := by
    push_cast
    ring
  have hexponent' : (places : ℤ) - shown + 1 = ((places + 1 : Nat) : ℤ) - shown := by
    push_cast
    ring
  rw [hsize] at hlower hupper
  rw [hlength, hexponent, hexponent', zpow_sub₀ (by norm_num), zpow_sub₀ (by norm_num),
    zpow_natCast, zpow_natCast, zpow_natCast, div_le_iff₀ hten, lt_div_iff₀ hten]
  constructor
  · have hcast : (10 : ℚ) ^ places ≤ ((x.magnitude * 10 ^ shown / unit : Nat) : ℚ) := by
      exact_mod_cast hleast
    exact hcast.trans hlower
  · have hcast : ((x.magnitude * 10 ^ shown / unit + 1 : Nat) : ℚ) ≤ 10 ^ (places + 1) := by
      exact_mod_cast hgreatest
    exact hupper.trans_le hcast

/-- The seventeenth grid has a point in the interval: it is finer than the interval is wide. -/
lemma onGrid?_ne_none (hx : 0 < x.significand) :
    x.onGrid? (x.leadingExponent - (16 : Nat)) ≠ none := by
  intro hnone
  obtain ⟨hbelow, habove⟩ := not_contains_of_onGrid? hnone
  obtain ⟨hlower, hupper, hnext⟩ := x.neighbours_bounds (x.leadingExponent - (16 : Nat))
  obtain ⟨hleading, -⟩ := leadingExponent_bounds hx
  have hplace := x.place_pos
  have hgrid : (10 : ℚ) ^ x.leadingExponent =
      10 ^ (x.leadingExponent - (16 : Nat)) * 10 ^ 16 := by
    rw [← zpow_natCast, ← zpow_add₀ (by norm_num), sub_add_cancel]
  rw [hnext] at habove
  rw [hgrid, size_eq] at hleading
  generalize (10 : ℚ) ^ (x.leadingExponent - (16 : Nat)) = grid at *
  generalize ((x.neighbours (x.leadingExponent - (16 : Nat))).1) = below at *
  push_cast at habove hupper
  -- A neighbour outside of the interval is as far away as the interval reaches.
  have hfar : (below : ℚ) * grid ≤ x.size - x.reachBelow := by
    by_contra hnear
    refine hbelow (contains_of_near hx (not_le.mp hnear) ?_)
    linarith
  have hfar' : x.size + x.place / 2 ≤ ((below : ℚ) + 1) * grid := by
    by_contra hnear
    have hreach := x.reachBelow_bounds.1
    refine habove (contains_of_near hx ?_ (not_le.mp hnear))
    linarith
  have hwidth : x.reachBelow + x.place / 2 ≤ grid := by linarith
  unfold reachBelow at hwidth
  split at hwidth
  · next hdense =>
    rw [hdense.1] at hleading
    push_cast at hleading
    linarith
  · have hsignificand : (x.significand : ℚ) * x.place ≤ 2 ^ 53 * x.place := by
      refine mul_le_mul_of_nonneg_right ?_ hplace.le
      exact_mod_cast x.significand_lt.le
    linarith

/-- The shortest digits lie in the interval. -/
theorem contains_shortest (hx : 0 < x.significand) :
    x.roundingInterval.Contains x.shortest.value := by
  have hfound := contains_searchGrids (by norm_num : 16 < 17) (onGrid?_ne_none hx)
  rw [shortest, DecimalDigits.value_strip]
  exact hfound

/-- A power of ten near a double is that of the leading exponent or the next. -/
lemma power_eq_or {power : ℤ} (hx : 20 ≤ x.significand)
    (h : x.roundingInterval.Contains (10 ^ power)) :
    power = x.leadingExponent ∨ power = x.leadingExponent + 1 := by
  obtain ⟨hleading, hleading'⟩ := leadingExponent_bounds (x := x) (by omega)
  obtain ⟨hnear, hnear'⟩ := h.near hx
  have hten : (1 : ℚ) < 10 := by norm_num
  have hgrid : (0 : ℚ) < 10 ^ (x.leadingExponent - 1) := zpow_pos (by norm_num) _
  have hsteps : (10 : ℚ) ^ x.leadingExponent = 10 ^ (x.leadingExponent - 1) * 10 := by
    rw [← zpow_add_one₀ (by norm_num), sub_add_cancel]
  have hstep : (10 : ℚ) ^ (x.leadingExponent + 2) = 10 ^ (x.leadingExponent + 1) * 10 := by
    rw [← zpow_add_one₀ (by norm_num), add_assoc]
    rfl
  have habove : (10 : ℚ) ^ power < 10 ^ (x.leadingExponent + 2) := by
    rw [hstep]
    linarith
  have hbelow : (10 : ℚ) ^ (x.leadingExponent - 1) < 10 ^ power := by linarith
  have hlt := (zpow_lt_zpow_iff_right₀ hten).mp habove
  have hgt := (zpow_lt_zpow_iff_right₀ hten).mp hbelow
  omega

/-- A power of ten in the interval of a double with some bits is written as itself. -/
theorem shortest_value_of_power {power : ℤ} (hx : 20 ≤ x.significand)
    (h : x.roundingInterval.Contains (10 ^ power)) : x.shortest.value = 10 ^ power := by
  obtain ⟨hleading, hleading'⟩ := leadingExponent_bounds (x := x) (by omega)
  obtain ⟨hnear, hnear'⟩ := h.near hx
  obtain ⟨-, -, hnext⟩ := x.neighbours_bounds x.leadingExponent
  have hcases := power_eq_or hx h
  rw [zpow_add_one₀ (by norm_num)] at hleading'
  rw [shortest, DecimalDigits.value_strip, searchGrids]
  -- Either way the point beside the power is too far from the double.
  rcases hcases with rfl | rfl
  · have hbelow : (x.neighbours x.leadingExponent).1 = 1 := by
      refine neighbours_fst_eq ?_ ?_
      · rwa [Nat.cast_one, one_mul]
      · push_cast
        linarith
    have hfound : x.onGrid? x.leadingExponent = some ⟨1, x.leadingExponent⟩ := by
      rw [← hbelow]
      refine onGrid?_eq_lower ?_ fun habove => ?_
      · rwa [hbelow, Nat.cast_one, one_mul]
      · rw [hnext, hbelow] at habove
        have hfar := (habove.near hx).2
        push_cast at hfar
        linarith
    rw [hfound, Option.getD_some, Nat.cast_one, one_mul]
  · rw [zpow_add_one₀ (by norm_num)] at h hnear hnear' ⊢
    have hbelow : (x.neighbours x.leadingExponent).1 = 9 := by
      refine neighbours_fst_eq ?_ ?_
      · push_cast
        linarith
      · push_cast
        linarith
    have hfound : x.onGrid? x.leadingExponent = some ⟨10, x.leadingExponent⟩ := by
      have habove : (x.neighbours x.leadingExponent).2 = 10 := by rw [hnext, hbelow]
      rw [← habove]
      refine onGrid?_eq_upper (fun hbelow' => ?_) ?_
      · rw [hbelow] at hbelow'
        have hfar := (hbelow'.near hx).1
        push_cast at hfar
        linarith
      · rwa [habove, Nat.cast_ofNat, mul_comm]
    rw [hfound, Option.getD_some, Nat.cast_ofNat, mul_comm]

end Binary64

end SchemaCompiler
