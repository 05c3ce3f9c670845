import Mathlib.Tactic.Lemma
import SchemaCompiler.Json.Number

/-!
# Numbers that stay positive

Rounding a quotient gives zero only if the quotient is below the least double
(`Binary64.significand_pos_of_roundRatio`).  The step of a decimal place is one divided by a power
of ten that a double can hold, so it is above zero (`Json.Number.isPositive_of_decimalStep?`).
-/

namespace SchemaCompiler

/-- A quotient of at least one is not rounded to zero. -/
lemma roundQuotient_pos {num den : Nat} (hnum : 0 < num) (h : den ≤ num) :
    0 < roundQuotient num den := by
  unfold roundQuotient
  dsimp only
  by_cases hden : den = 0
  · -- There is no quotient, and the remainder exceeds half of nothing.
    rw [hden, Nat.mod_zero, if_neg (by omega), if_pos (by omega)]
    omega
  · have hquotient : 1 ≤ num / den := (Nat.one_le_div_iff (by omega)).mpr h
    repeat' split
    all_goals omega

namespace Binary64

/-- There are units. -/
lemma unit_pos : 0 < unit := by
  unfold unit
  generalize 1074 = places
  exact Nat.pow_pos Nat.zero_lt_two

/-- Rounding keeps the sign. -/
lemma negative_of_roundRatio {negative : Bool} {num den : Nat} {x : Binary64}
    (h : roundRatio negative num den = some x) : x.negative = negative := by
  unfold roundRatio at h
  dsimp only at h
  split at h
  · exact (ofParts?_eq_some h).1
  · exact (ofParts?_eq_some h).1

/-- A quotient of at least one unit is not rounded to zero. -/
lemma significand_pos_of_roundRatio {negative : Bool} {num den : Nat} {x : Binary64}
    (hnum : 0 < num) (hden : den ≤ num * unit) (h : roundRatio negative num den = some x) :
    0 < x.significand := by
  have htotal : 0 < num * unit := Nat.mul_pos hnum unit_pos
  unfold roundRatio at h
  dsimp only at h
  generalize num * unit = total at hden htotal h
  split at h
  · rw [(ofParts?_eq_some h).2.1]
    refine roundQuotient_pos htotal ?_
    by_cases hzero : den = 0
    · rw [hzero, Nat.zero_mul]
      omega
    · have hquotient : total / den ≠ 0 :=
        Nat.ne_of_gt ((Nat.one_le_div_iff (by omega)).mpr hden)
      calc den * Nat.pow 2 (Nat.log2 (total / den) - 52)
          ≤ den * 2 ^ Nat.log2 (total / den) :=
            Nat.mul_le_mul_left _ (Nat.pow_le_pow_right (by omega) (Nat.sub_le _ _))
        _ ≤ den * (total / den) := Nat.mul_le_mul_left _ (Nat.log2_self_le hquotient)
        _ ≤ total := Nat.mul_div_le _ _
  · rw [(ofParts?_eq_some h).2.1]
    decide

/-- A number without a sign is above zero if its significand is. -/
lemma scaled_pos {x : Binary64} (hnegative : x.negative = false) (h : 0 < x.significand) :
    0 < x.scaled := by
  have hmagnitude : 0 < x.magnitude := Nat.mul_pos h (Nat.pow_pos Nat.zero_lt_two)
  rw [scaled, hnegative, if_neg Bool.false_ne_true]
  omega

/-- Doubles are far below the square of the unit. -/
lemma magnitude_le (x : Binary64) : 32 * x.magnitude ≤ unit * unit := by
  have hsignificand : x.significand ≤ 2 ^ 53 := Nat.le_of_lt x.significand_lt
  have hexponent : 5 + (53 + x.exponent) ≤ 1074 + 1074 := by
    have hle := x.exponent_le
    omega
  unfold magnitude unit
  generalize 1074 = places at hexponent ⊢
  calc 32 * (x.significand * 2 ^ x.exponent)
      ≤ 2 ^ 5 * (2 ^ 53 * 2 ^ x.exponent) :=
        Nat.mul_le_mul_left _ (Nat.mul_le_mul_right _ hsignificand)
    _ = 2 ^ (5 + (53 + x.exponent)) := by rw [← Nat.pow_add, ← Nat.pow_add]
    _ ≤ 2 ^ (places + places) := Nat.pow_le_pow_right Nat.zero_lt_two hexponent
    _ = 2 ^ places * 2 ^ places := Nat.pow_add 2 places places

/-- One is a double. -/
lemma exists_ofInt?_one : ∃ one, ofInt? 1 = some one ∧ one.negative = false ∧
    one.magnitude = unit := by
  have hone : (ofInt? 1).any (fun one => !one.negative && one.magnitude == unit) = true := by
    decide +kernel
  cases h : ofInt? 1 with
  | none => simp [h] at hone
  | some one => exact ⟨one, rfl, by simpa [h] using hone⟩

end Binary64

namespace Json.Number

/-- A number is above zero. -/
def IsPositive : Number → Prop
  | int n => 0 < n
  | float x => 0 < x.scaled

/-- A power of ten that a double can hold divides in one step. -/
lemma lower_eq {x : Binary64} {places : Nat} (hpos : 0 < places) (hmax : places ≤ maxPower) :
    lower x places = lowerOnce x places := by
  have hsteps : (places - 1) / maxPower = 0 := Nat.div_eq_of_lt (by omega)
  have hnone : lowerRepeatedly 0 x = some x := rfl
  unfold lower
  dsimp only
  rw [hsteps, hnone, Option.bind_some, Nat.mul_zero, Nat.sub_zero]

/-- A significand before the point is multiplied, and one after the point is divided. -/
lemma toDouble?_eq {s : Significand} {x : Binary64} (hvalue : Binary64.ofInt? s.value = some x) :
    s.toDouble? = if 0 ≤ s.exponent then raise x s.exponent.natAbs
      else lower x s.exponent.natAbs := by
  -- The definition is opened as a function: at an argument, checking the step would compute the
  -- double that the definition makes a case distinction on.
  have hopened : ∀ f, f = Significand.toDouble? → f s = if 0 ≤ s.exponent then
      raise x s.exponent.natAbs else lower x s.exponent.natAbs := by
    intro f hf
    delta Significand.toDouble? at hf
    subst hf
    dsimp only
    rw [hvalue]
  exact hopened _ rfl

/-- The double that one at some place is read as. -/
lemma toDouble?_one {one : Binary64} (hone : Binary64.ofInt? 1 = some one) (exponent : Int) :
    Significand.toDouble? ⟨1, exponent⟩ = if 0 ≤ exponent then raise one exponent.natAbs
      else lower one exponent.natAbs := by
  generalize hs : (⟨1, exponent⟩ : Significand) = s
  have hvalue : Binary64.ofInt? s.value = some one := by
    rw [← hs]
    exact hone
  have hexponent : s.exponent = exponent := by rw [← hs]
  rw [toDouble?_eq hvalue, hexponent]

/-- The step of a decimal place is one divided by a power of ten. -/
lemma decimalStep?_eq {one : Binary64} (hone : Binary64.ofInt? 1 = some one) {places : Nat}
    (hpos : 0 < places) (hmax : places ≤ maxPower) :
    decimalStep? places = (lowerOnce one places).map float := by
  rw [decimalStep?, toDouble?_one hone, if_neg (by omega), Int.natAbs_neg, Int.natAbs_natCast,
    lower_eq hpos hmax]

/-- The step of a decimal place is above zero. -/
theorem isPositive_of_decimalStep? {places : Nat} {n : Number} (hpos : 0 < places)
    (hmax : places ≤ maxPower) (h : decimalStep? places = some n) : n.IsPositive := by
  obtain ⟨one, hone, hsign, hmagnitude⟩ := Binary64.exists_ofInt?_one
  rw [decimalStep?_eq hone hpos hmax] at h
  obtain ⟨x, hx, rfl⟩ := Option.map_eq_some_iff.mp h
  obtain ⟨power, hpower, hdiv⟩ := Option.bind_eq_some_iff.mp hx
  have hone_pos : 0 < one.magnitude := hmagnitude ▸ Binary64.unit_pos
  have hpower_le : power.magnitude ≤ one.magnitude * Binary64.unit := by
    have hsmall := power.magnitude_le
    rw [hmagnitude]
    omega
  have hsignificand := Binary64.significand_pos_of_roundRatio hone_pos hpower_le hdiv
  have hnegative : x.negative = (one.negative != power.negative) :=
    Binary64.negative_of_roundRatio hdiv
  rw [hsign, Binary64.negative_of_roundRatio hpower] at hnegative
  exact Binary64.scaled_pos hnegative hsignificand

end Json.Number

end SchemaCompiler
