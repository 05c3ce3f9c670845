import Mathlib.Algebra.Order.Field.Basic
import Mathlib.Algebra.Order.Ring.Unbundled.Rat
import Mathlib.Data.Rat.Cast.Order
import Mathlib.Tactic.Linarith
import SchemaCompiler.Proofs.Numeric.Nearest

/-!
# The values of numbers

The order of numbers against the order of their exact values (`Json.Number.compare_eq_lt_iff_value`,
`Json.Number.compare_eq_eq_iff_value`).  Numbers that are not both integers are compared by their
nearest doubles, and rounding keeps the order of values (`Json.Number.nearest_le_of_scaled_le`), so
a comparison never turns two numbers round.  It is exact except for an integer and a double that is
nearest to it without being equal to it (`Json.Number.Indistinct`), which are taken for equal; such
an integer is beyond `2 ^ 53`.
-/

namespace SchemaCompiler

namespace Binary64

/-! ### Values of doubles -/

/-- The exact value. -/
def value (x : Binary64) : ℚ :=
  (if x.negative then -1 else 1) * (x.significand * 2 ^ x.exponent / 2 ^ 1074)

/-- The unit is this power of two. -/
lemma unit_eq : unit = 2 ^ 1074 := by
  unfold unit
  generalize 1074 = places
  exact Nat.pow_eq

/-- There are units among the rationals. -/
lemma cast_unit_pos : (0 : ℚ) < unit := Nat.cast_pos.mpr unit_pos

/-- The value is the number of units, each of them one part of `unit`. -/
lemma value_eq (x : Binary64) : x.value = x.scaled / unit := by
  have hmagnitude : (x.magnitude : ℚ) = x.significand * 2 ^ x.exponent := by
    rw [magnitude, Nat.pow_eq, Nat.cast_mul, Nat.cast_pow, Nat.cast_ofNat]
  have hunit : (unit : ℚ) = 2 ^ 1074 := by
    rw [unit_eq]
    generalize 1074 = places
    rw [Nat.cast_pow, Nat.cast_ofNat]
  rw [value, ← hmagnitude, ← hunit, scaled]
  split
  · rw [Int.cast_neg, Int.cast_natCast, neg_one_mul, neg_div]
  · rw [Int.cast_natCast, one_mul]

/-! ### Rounding with a sign -/

/-- The number of units nearest a number of units, with its sign. -/
def roundedInt (total : ℤ) : ℤ :=
  if total < 0 then -rounded total.natAbs else rounded total.natAbs

/-- Rounding keeps the order of numbers of units with their signs. -/
lemma roundedInt_mono {total total' : ℤ} (h : total ≤ total') :
    roundedInt total ≤ roundedInt total' := by
  unfold roundedInt
  by_cases hneg : total < 0
  · by_cases hneg' : total' < 0
    · have hrounded : rounded total'.natAbs ≤ rounded total.natAbs := rounded_mono (by omega)
      rw [if_pos hneg, if_pos hneg']
      omega
    · rw [if_pos hneg, if_neg hneg']
      omega
  · have hrounded : rounded total.natAbs ≤ rounded total'.natAbs := rounded_mono (by omega)
    rw [if_neg hneg, if_neg (by omega)]
    omega

/-- An integer is rounded with its distance from zero. -/
lemma roundedInt_mul_unit (n : ℤ) : roundedInt (n * unit) =
    if n < 0 then -(rounded (n.natAbs * unit) : ℤ) else rounded (n.natAbs * unit) := by
  have hunit : (0 : ℤ) < unit := Int.natCast_pos.mpr unit_pos
  have hneg : n * unit < 0 ↔ n < 0 := by
    have hscale := mul_lt_mul_iff_left₀ (b := n) (c := 0) hunit
    rwa [zero_mul] at hscale
  unfold roundedInt
  rw [Int.natAbs_mul, Int.natAbs_natCast]
  simp only [hneg]

/-- A double is its own rounding. -/
lemma roundedInt_scaled (x : Binary64) : roundedInt x.scaled = x.scaled := by
  have hrounded := rounded_magnitude x
  have hnatAbs : x.scaled.natAbs = x.magnitude := by
    unfold scaled
    split <;> omega
  unfold roundedInt
  rw [hnatAbs, hrounded]
  unfold scaled
  split <;> split <;> omega

end Binary64

namespace Json.Number

variable {a b : Number}

/-! ### Values of numbers -/

/-- The exact value. -/
def value : Number → ℚ
  | int n => n
  | float x => x.value

/-- The value is the number of units, each of them one part of `unit`. -/
lemma value_eq (a : Number) : a.value = a.scaled / Binary64.unit := by
  cases a with
  | int n =>
    rw [value, scaled, Int.cast_mul, Int.cast_natCast,
      mul_div_cancel_right₀ _ Binary64.cast_unit_pos.ne']
  | float x => exact Binary64.value_eq x

/-- Values are in the order of their numbers of units. -/
lemma value_lt_iff : a.value < b.value ↔ a.scaled < b.scaled := by
  rw [value_eq, value_eq, div_lt_div_iff_of_pos_right Binary64.cast_unit_pos, Int.cast_lt]

/-- Values are equal if they are as many units. -/
lemma value_eq_iff : a.value = b.value ↔ a.scaled = b.scaled := by
  rw [value_eq, value_eq, div_left_inj' Binary64.cast_unit_pos.ne', Int.cast_inj]

/-- The nearest double is the rounded number of units. -/
lemma nearest_eq (ha : a.Fits) : a.nearest = Binary64.roundedInt a.scaled := by
  obtain ⟨x, hx⟩ := ha.exists_double?
  have hnearest : a.nearest = x.scaled := by
    unfold nearest
    rw [hx]
    rfl
  rw [hnearest]
  cases a with
  | int n =>
    obtain ⟨hsign, hmagnitude⟩ := Binary64.magnitude_of_ofInt? hx
    rw [Binary64.scaled, hsign, hmagnitude, scaled, Binary64.roundedInt_mul_unit]
    simp only [decide_eq_true_eq]
  | float y =>
    obtain rfl : y = x := Option.some.inj hx
    exact (Binary64.roundedInt_scaled y).symm

/-- Nearest doubles are not in the other order. -/
lemma nearest_le_of_scaled_le (ha : a.Fits) (hb : b.Fits) (h : a.scaled ≤ b.scaled) :
    a.nearest ≤ b.nearest := by
  rw [nearest_eq ha, nearest_eq hb]
  exact Binary64.roundedInt_mono h

/-- A double is nearest to itself. -/
lemma nearest_float (x : Binary64) : (float x).nearest = (float x).scaled := rfl

/-- An integer up to `2 ^ 53` is its nearest double. -/
lemma nearest_int {n : ℤ} (hn : n.natAbs ≤ 2 ^ 53) : (int n).nearest = (int n).scaled := by
  have hfits : (int n).Fits := by
    unfold Fits minSigned maxUnsigned
    omega
  rw [nearest_eq hfits, scaled, Binary64.roundedInt_mul_unit, Binary64.rounded_mul_unit hn,
    Int.natCast_mul]
  split
  · next hneg =>
    rw [Int.ofNat_natAbs_of_nonpos hneg.le, neg_mul, neg_neg]
  · next hnonneg => rw [Int.natAbs_of_nonneg (not_lt.mp hnonneg)]

/-! ### The order against the values -/

/-- An integer and a double that is nearest to it, but another number. -/
structure Indistinct (a b : Number) : Prop where
  mixed : a.isInt ≠ b.isInt
  nearest_eq : a.nearest = b.nearest
  value_ne : a.value ≠ b.value

/-- It does not matter which of them is the integer. -/
lemma Indistinct.symm (h : a.Indistinct b) : b.Indistinct a :=
  ⟨h.mixed.symm, h.nearest_eq.symm, h.value_ne.symm⟩

/-- The integer is beyond `2 ^ 53`. -/
lemma Indistinct.natAbs_gt {n : ℤ} {x : Binary64} (h : (int n).Indistinct (float x)) :
    2 ^ 53 < n.natAbs := by
  by_contra hle
  have hnearest := h.nearest_eq
  rw [nearest_int (not_lt.mp hle), nearest_float] at hnearest
  exact h.value_ne (value_eq_iff.mpr hnearest)

/-- Numbers are taken for equal exactly if they are equal or cannot be told apart. -/
theorem compare_eq_eq_iff_value (ha : a.Fits) (hb : b.Fits) :
    a.compare b = .eq ↔ a.value = b.value ∨ a.Indistinct b := by
  by_cases hint : a.isInt = true ∧ b.isInt = true
  · obtain ⟨m, n, rfl, rfl⟩ := exists_int hint
    have hdistinct : ¬(int m).Indistinct (int n) := fun h => h.mixed rfl
    rw [compare_int, Int.compare_eq_eq, or_iff_left hdistinct, value, value, Int.cast_inj]
  · rw [compare_eq_nearest ha hb hint, Int.compare_eq_eq]
    constructor
    · intro hnearest
      by_cases hvalue : a.value = b.value
      · exact Or.inl hvalue
      · -- Two doubles with one nearest double are the same number.
        refine Or.inr ⟨fun hsame => ?_, hnearest, hvalue⟩
        cases a with
        | int m =>
          cases b with
          | int n => exact hint ⟨rfl, rfl⟩
          | float y => cases hsame
        | float x =>
          cases b with
          | int n => cases hsame
          | float y => exact hvalue (value_eq_iff.mpr hnearest)
    · rintro (hvalue | hindistinct)
      · have hscaled := value_eq_iff.mp hvalue
        exact le_antisymm (nearest_le_of_scaled_le ha hb hscaled.le)
          (nearest_le_of_scaled_le hb ha hscaled.ge)
      · exact hindistinct.nearest_eq

/-- A number is greater than another one exactly if its value is greater and the two can be told
apart. -/
theorem compare_eq_gt_iff_value (ha : a.Fits) (hb : b.Fits) :
    a.compare b = .gt ↔ b.value < a.value ∧ ¬a.Indistinct b := by
  by_cases hint : a.isInt = true ∧ b.isInt = true
  · obtain ⟨m, n, rfl, rfl⟩ := exists_int hint
    have hdistinct : ¬(int m).Indistinct (int n) := fun h => h.mixed rfl
    rw [compare_int, Int.compare_eq_gt, and_iff_left hdistinct, value, value, Int.cast_lt]
  · constructor
    · intro hgreater
      have hne : a.compare b ≠ .eq := by
        rw [hgreater]
        decide
      rw [Ne, compare_eq_eq_iff_value ha hb, not_or] at hne
      refine ⟨?_, hne.2⟩
      have hnearest := nearest_lt_of_compare ha hb hint hgreater
      rw [value_lt_iff]
      by_contra hle
      exact absurd (nearest_le_of_scaled_le ha hb (not_lt.mp hle)) (not_le.mpr hnearest)
    · rintro ⟨hvalue, hdistinct⟩
      have hle := nearest_le_of_scaled_le hb ha (value_lt_iff.mp hvalue).le
      have hne : b.nearest ≠ a.nearest := by
        intro hnearest
        have heq : a.compare b = .eq := by
          rw [compare_eq_nearest ha hb hint, Int.compare_eq_eq, hnearest]
        rcases (compare_eq_eq_iff_value ha hb).mp heq with hsame | hindistinct
        · exact hvalue.ne' hsame
        · exact hdistinct hindistinct
      exact compare_of_nearest_lt ha hb (lt_of_le_of_ne hle hne)

/-- A number is smaller than another one exactly if its value is smaller and the two can be told
apart. -/
theorem compare_eq_lt_iff_value (ha : a.Fits) (hb : b.Fits) :
    a.compare b = .lt ↔ a.value < b.value ∧ ¬a.Indistinct b := by
  have hsymm : b.Indistinct a ↔ a.Indistinct b := ⟨Indistinct.symm, Indistinct.symm⟩
  rw [compare_eq_lt_iff ha hb, compare_eq_gt_iff_value hb ha, hsymm]

end Json.Number

end SchemaCompiler
