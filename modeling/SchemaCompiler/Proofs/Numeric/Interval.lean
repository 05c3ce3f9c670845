import Mathlib.Tactic.Positivity
import SchemaCompiler.Numeric.Shortest
import SchemaCompiler.Proofs.Numeric.Value

/-!
# Rounding intervals

The rationals that are rounded to a double, apart from its sign: a number lies in the interval of
the double that it is rounded to and in no other (`Binary64.roundRatio_eq_some_iff_contains`).  An
interval reaches half a place to either side of its double, or a quarter below a power of two
(`Binary64.contains_roundingInterval_iff`).  Intervals are in the order of their doubles
(`Binary64.le_of_contains`).
-/

namespace SchemaCompiler

namespace Binary64

variable {x y : Binary64} {t t' : ℚ} {num den : Nat} {negative : Bool}

/-! ### Size and place -/

/-- The distance of a double from zero. -/
def size (x : Binary64) : ℚ := x.magnitude / unit

/-- The value of the last place of the significand. -/
def place (x : Binary64) : ℚ := ((2 ^ x.exponent : Nat) : ℚ) / unit

/-- There is a last place. -/
lemma place_pos (x : Binary64) : 0 < x.place := by
  have hpower : (0 : ℚ) < ((2 ^ x.exponent : Nat) : ℚ) := Nat.cast_pos.mpr (Nat.two_pow_pos _)
  exact div_pos hpower cast_unit_pos

/-- The size is the significand at its place. -/
lemma size_eq (x : Binary64) : x.size = x.significand * x.place := by
  rw [size, magnitude, place, Nat.cast_mul, mul_div_assoc]
  rfl

/-- A double other than zero has a size. -/
lemma size_pos (hx : 0 < x.significand) : 0 < x.size := by
  rw [size_eq]
  exact mul_pos (Nat.cast_pos.mpr hx) x.place_pos

/-- Sizes are in the order of the numbers of units. -/
lemma size_lt_size_iff : x.size < y.size ↔ x.magnitude < y.magnitude := by
  rw [size, size, div_lt_div_iff_of_pos_right cast_unit_pos, Nat.cast_lt]

/-! ### Membership -/

/-- A rational lies in an interval. -/
def RoundingInterval.Contains (interval : RoundingInterval) (t : ℚ) : Prop :=
  if interval.closed then interval.lower ≤ 4 * unit * t ∧ 4 * unit * t ≤ interval.upper
  else interval.lower < 4 * unit * t ∧ 4 * unit * t < interval.upper

/-- Fractions lie in the interval as quotients do. -/
lemma holds_iff_contains (interval : RoundingInterval) (hden : 0 < den) :
    interval.Holds (num * unit) den ↔ interval.Contains (num / den) := by
  have hden' : (0 : ℚ) < den := Nat.cast_pos.mpr hden
  have hpoint : 4 * unit * ((num : ℚ) / den) = ((4 * (num * unit) : Nat) : ℚ) / den := by
    push_cast
    ring
  unfold RoundingInterval.Holds RoundingInterval.Contains
  rw [hpoint, le_div_iff₀ hden', div_le_iff₀ hden', lt_div_iff₀ hden', div_lt_iff₀ hden']
  norm_cast

/-- A quotient is rounded to a double other than zero exactly if it lies in its interval. -/
theorem roundRatio_eq_some_iff_contains (hden : 0 < den) (hx : 0 < x.significand) :
    roundRatio negative num den = some x ↔
      x.negative = negative ∧ x.roundingInterval.Contains (num / den) := by
  rw [roundRatio_eq_some_iff hden hx, holds_iff_contains _ hden]

/-- How far the interval reaches below the double. -/
def reachBelow (x : Binary64) : ℚ :=
  if x.significand = 2 ^ 52 ∧ x.exponent ≠ 0 then x.place / 4 else x.place / 2

/-- The interval reaches below by a quarter or a half of a place. -/
lemma reachBelow_bounds (x : Binary64) :
    x.place / 4 ≤ x.reachBelow ∧ x.reachBelow ≤ x.place / 2 := by
  have hplace := x.place_pos
  unfold reachBelow
  split <;> constructor <;> linarith

/-- The lower end, which is not cut off at zero. -/
lemma cast_lower (hx : 0 < x.significand) :
    (x.roundingInterval.lower : ℚ) = 4 * unit * (x.size - x.reachBelow) := by
  have hunit := cast_unit_pos
  have hpower : Nat.pow 2 x.exponent = 2 ^ x.exponent := rfl
  have hstep : 2 ^ x.exponent ≤ x.magnitude := Nat.le_mul_of_pos_left _ hx
  have hsize : unit * x.size = x.magnitude := mul_div_cancel₀ _ hunit.ne'
  have hplace : unit * x.place = ((2 ^ x.exponent : Nat) : ℚ) := mul_div_cancel₀ _ hunit.ne'
  have hleast : 0x10000000000000 = 2 ^ 52 := rfl
  unfold roundingInterval reachBelow
  dsimp only
  rw [hpower, hleast]
  split
  · rw [Nat.cast_sub (by omega), Nat.cast_mul, ← hsize, ← hplace]
    push_cast
    ring
  · rw [Nat.cast_sub (by omega), Nat.cast_mul, Nat.cast_mul, ← hsize, ← hplace]
    push_cast
    ring

/-- The upper end. -/
lemma cast_upper (x : Binary64) :
    (x.roundingInterval.upper : ℚ) = 4 * unit * (x.size + x.place / 2) := by
  have hunit := cast_unit_pos
  have hpower : Nat.pow 2 x.exponent = 2 ^ x.exponent := rfl
  have hsize : unit * x.size = x.magnitude := mul_div_cancel₀ _ hunit.ne'
  have hplace : unit * x.place = ((2 ^ x.exponent : Nat) : ℚ) := mul_div_cancel₀ _ hunit.ne'
  unfold roundingInterval
  dsimp only
  rw [hpower, Nat.cast_add, Nat.cast_mul, Nat.cast_mul, ← hsize, ← hplace]
  push_cast
  ring

/-- An interval by its reach to either side, with its ends if the significand is even. -/
lemma contains_roundingInterval_iff (hx : 0 < x.significand) :
    x.roundingInterval.Contains t ↔
      if x.significand % 2 = 0 then
        x.size - x.reachBelow ≤ t ∧ t ≤ x.size + x.place / 2
      else x.size - x.reachBelow < t ∧ t < x.size + x.place / 2 := by
  have hunit : (0 : ℚ) < 4 * unit := mul_pos (by norm_num) cast_unit_pos
  have hclosed : x.roundingInterval.closed = true ↔ x.significand % 2 = 0 := beq_iff_eq
  unfold RoundingInterval.Contains
  simp only [hclosed, cast_lower hx, cast_upper, mul_le_mul_iff_right₀ hunit,
    mul_lt_mul_iff_right₀ hunit]

/-- What lies in the interval is at most its reach away. -/
lemma RoundingInterval.Contains.bounds (hx : 0 < x.significand)
    (h : x.roundingInterval.Contains t) :
    x.size - x.reachBelow ≤ t ∧ t ≤ x.size + x.place / 2 := by
  rw [contains_roundingInterval_iff hx] at h
  split at h
  · exact h
  · exact ⟨h.1.le, h.2.le⟩

/-- What is less than its reach away lies in the interval. -/
lemma contains_of_near (hx : 0 < x.significand) (hlower : x.size - x.reachBelow < t)
    (hupper : t < x.size + x.place / 2) : x.roundingInterval.Contains t := by
  rw [contains_roundingInterval_iff hx]
  split
  · exact ⟨hlower.le, hupper.le⟩
  · exact ⟨hlower, hupper⟩

/-- What lies in the interval of a double with some bits is near to it. -/
lemma RoundingInterval.Contains.near (hx : 20 ≤ x.significand)
    (h : x.roundingInterval.Contains t) : 39 * x.size ≤ 40 * t ∧ 40 * t ≤ 41 * x.size := by
  obtain ⟨hlower, hupper⟩ := h.bounds (by omega)
  have hreach := x.reachBelow_bounds.2
  have hplace : 20 * x.place ≤ x.size := by
    rw [size_eq]
    exact mul_le_mul_of_nonneg_right (by exact_mod_cast hx) x.place_pos.le
  constructor <;> linarith

/-- What lies in an interval is above zero. -/
lemma RoundingInterval.Contains.pos (hx : 0 < x.significand)
    (h : x.roundingInterval.Contains t) : 0 < t := by
  have hbounds := (h.bounds hx).1
  have hreach := x.reachBelow_bounds.2
  have hplace := x.place_pos
  have hsize : x.place ≤ x.size := by
    rw [size_eq]
    exact le_mul_of_one_le_left hplace.le (by exact_mod_cast hx)
  linarith

/-! ### The order of intervals -/

/-- The interval of a smaller double ends before that of a greater one begins. -/
lemma upper_le_lower (h : x.magnitude < y.magnitude) :
    x.roundingInterval.upper ≤ y.roundingInterval.lower := by
  have hxpower : Nat.pow 2 x.exponent = 2 ^ x.exponent := rfl
  have hypower : Nat.pow 2 y.exponent = 2 ^ y.exponent := rfl
  have hleast : 0x10000000000000 = 2 ^ 52 := rfl
  have hxlt : x.significand < 2 ^ 53 := x.significand_lt
  have hylt : y.significand < 2 ^ 53 := y.significand_lt
  unfold roundingInterval
  dsimp only
  unfold magnitude at h ⊢
  rw [hleast]
  rw [hxpower, hypower] at h ⊢
  rcases Nat.lt_trichotomy x.exponent y.exponent with hlt | heq | hgt
  · -- The places of the greater double are larger, and it has all of its bits.
    have hplace : 2 ^ (x.exponent + 1) ≤ 2 ^ y.exponent :=
      Nat.pow_le_pow_right Nat.zero_lt_two hlt
    have hgreatest : x.significand * 2 ^ x.exponent ≤ (2 ^ 53 - 1) * 2 ^ x.exponent :=
      Nat.mul_le_mul_right _ (by omega)
    have hnormal : 2 ^ 52 ≤ y.significand := y.normal.resolve_left (by omega)
    rw [Nat.pow_succ] at hplace
    by_cases hdense : y.significand = 2 ^ 52
    · rw [if_pos ⟨hdense, by omega⟩, hdense]
      omega
    · have hnext : (2 ^ 52 + 1) * 2 ^ y.exponent ≤ y.significand * 2 ^ y.exponent :=
        Nat.mul_le_mul_right _ (by omega)
      rw [if_neg fun hboth => hdense hboth.1]
      omega
  · rw [heq] at h ⊢
    have hless : x.significand < y.significand := Nat.lt_of_mul_lt_mul_right h
    have hnext : (x.significand + 1) * 2 ^ y.exponent ≤ y.significand * 2 ^ y.exponent :=
      Nat.mul_le_mul_right _ hless
    rw [Nat.succ_mul] at hnext
    split <;> omega
  · -- The smaller double would have all of its bits at a larger place.
    have hplace : 2 ^ (y.exponent + 1) ≤ 2 ^ x.exponent :=
      Nat.pow_le_pow_right Nat.zero_lt_two hgt
    have hgreatest : y.significand * 2 ^ y.exponent ≤ (2 ^ 53 - 1) * 2 ^ y.exponent :=
      Nat.mul_le_mul_right _ (by omega)
    have hnormal : 2 ^ 52 ≤ x.significand := x.normal.resolve_left (by omega)
    have hleast : 2 ^ 52 * 2 ^ x.exponent ≤ x.significand * 2 ^ x.exponent :=
      Nat.mul_le_mul_right _ hnormal
    rw [Nat.pow_succ] at hplace
    omega

/-- Intervals are in the order of their doubles. -/
theorem le_of_contains (ht : x.roundingInterval.Contains t) (ht' : y.roundingInterval.Contains t')
    (h : x.size < y.size) : t ≤ t' := by
  have hunit : (0 : ℚ) < 4 * unit := mul_pos (by norm_num) cast_unit_pos
  have hends : (x.roundingInterval.upper : ℚ) ≤ y.roundingInterval.lower :=
    Nat.cast_le.mpr (upper_le_lower (size_lt_size_iff.mp h))
  have hupper : 4 * unit * t ≤ x.roundingInterval.upper := by
    unfold RoundingInterval.Contains at ht
    split at ht
    · exact ht.2
    · exact ht.2.le
  have hlower : y.roundingInterval.lower ≤ 4 * unit * t' := by
    unfold RoundingInterval.Contains at ht'
    split at ht'
    · exact ht'.1
    · exact ht'.1.le
  exact le_of_mul_le_mul_left (hupper.trans (hends.trans hlower)) hunit

end Binary64

end SchemaCompiler
