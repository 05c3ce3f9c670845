import SchemaCompiler.Constraint.Basic
import SchemaCompiler.Proofs.Numeric.Nearest

/-!
# Powers of ten and decimal steps

The numbers that digits are bounded by exist for every number of digits that can be asked for
(`Json.Number.exists_powerOfTen?`, `Json.Number.exists_decimalStep?`).  The text of a power of ten
that no integer holds is read as the double nearest to the power
(`Json.Number.double?_of_powerOfTen?`), and a step is one divided by such a double.
-/

namespace SchemaCompiler

namespace Binary64

variable {n : Nat} {p : Binary64}

/-- The double nearest a power of ten is that of an integer. -/
lemma powerOfTen?_eq_ofInt? (n : Nat) : powerOfTen? n = ofInt? (Nat.pow 10 n : Nat) := by
  have hsign : decide (((Nat.pow 10 n : Nat) : Int) < 0) = false :=
    decide_eq_false (Int.not_lt.mpr (Int.natCast_nonneg _))
  rw [powerOfTen?, ofInt?, hsign, Int.natAbs_natCast]

/-- It is above zero, and at least one. -/
lemma of_powerOfTen? (h : powerOfTen? n = some p) :
    p.negative = false ∧ 0 < p.significand ∧ unit ≤ p.magnitude := by
  have hpower : 1 ≤ 10 ^ n := Nat.one_le_pow _ _ (by decide)
  have hunits : unit ≤ 10 ^ n * unit := Nat.le_mul_of_pos_left _ hpower
  refine ⟨negative_of_roundRatio h, significand_pos_of_roundRatio hpower ?_ h, ?_⟩
  · exact (Nat.succ_le_of_lt unit_pos).trans hunits
  · rw [powerOfTen?_eq_ofInt?] at h
    have hone := rounded_mul_unit (n := 1) (by decide)
    rw [Nat.one_mul] at hone
    calc unit = rounded unit := hone.symm
      _ ≤ rounded (10 ^ n * unit) := rounded_mono hunits
      _ = p.magnitude := (magnitude_of_ofInt? h).2.symm

/-- One times a double is the double. -/
lemma one_mul_eq {one x : Binary64} (hsign : one.negative = false) (hone : one.magnitude = unit)
    (hx : 0 < x.significand) : one.mul x = some x := by
  have hunit : 0 < unit * unit := Nat.mul_pos unit_pos unit_pos
  rw [mul, hsign, hone, Bool.false_bne]
  refine roundRatio_self hx hunit ?_
  rw [Nat.mul_comm unit x.magnitude, Nat.mul_assoc]

end Binary64

namespace Json.Number

variable {n : Nat} {limit : Number}

/-- The text of a power of ten is read as the nearest double. -/
lemma toDouble?_powerOfTen (hn : n ≤ maxPower) :
    Significand.toDouble? ⟨1, n⟩ = Binary64.powerOfTen? n := by
  obtain ⟨one, hone, hsign, hmagnitude⟩ := Binary64.exists_ofInt?_one
  obtain ⟨p, hp⟩ := Binary64.exists_powerOfTen? hn
  rw [toDouble?_one hone, if_pos (Int.natCast_nonneg n), Int.natAbs_natCast, raise, if_pos hn, hp,
    Option.bind_some]
  exact Binary64.one_mul_eq hsign hmagnitude (Binary64.of_powerOfTen? hp).2.1

/-- A power of ten is an integer of 64 bits, or else the nearest double. -/
lemma powerOfTen?_eq (hn : n ≤ maxPower) : powerOfTen? n =
    if 10 ^ n ≤ maxUnsigned then some (int (10 ^ n : Nat))
    else (Binary64.powerOfTen? n).map float := by
  rw [← toDouble?_powerOfTen hn]
  rfl

/-- For every number of integer digits there is a limit. -/
theorem exists_powerOfTen? (hn : n ≤ Constraint.maxDigits) :
    ∃ limit, powerOfTen? n = some limit := by
  obtain ⟨p, hp⟩ := Binary64.exists_powerOfTen? hn
  rw [powerOfTen?_eq hn, hp]
  split
  · exact ⟨_, rfl⟩
  · exact ⟨_, rfl⟩

/-- The double nearest to a limit is the one nearest to the power. -/
lemma double?_of_powerOfTen? (hn : n ≤ maxPower) (h : powerOfTen? n = some limit) :
    limit.double? = Binary64.powerOfTen? n := by
  obtain ⟨p, hp⟩ := Binary64.exists_powerOfTen? hn
  rw [powerOfTen?_eq hn, hp] at h
  split at h
  · cases h
    exact (Binary64.powerOfTen?_eq_ofInt? n).symm
  · cases h
    exact hp.symm

/-- For every number of fraction digits there is a step. -/
theorem exists_decimalStep? (hpos : 0 < n) (hn : n ≤ Constraint.maxDigits) :
    ∃ step, decimalStep? n = some step := by
  obtain ⟨one, hone, -, hmagnitude⟩ := Binary64.exists_ofInt?_one
  obtain ⟨p, hp⟩ := Binary64.exists_powerOfTen? hn
  obtain ⟨-, -, hunit⟩ := Binary64.of_powerOfTen? hp
  have hp0 : 0 < p.magnitude := Binary64.unit_pos.trans_le hunit
  have hrange : one.magnitude * Binary64.unit ≤ (2 ^ 53 - 1) * (p.magnitude * 2 ^ 2045) := by
    rw [hmagnitude]
    have hproduct := Nat.mul_le_mul hunit Binary64.unit_le
    exact hproduct.trans (Nat.le_mul_of_pos_left _ (by decide))
  obtain ⟨x, hx⟩ := Binary64.exists_roundRatio (one.negative != p.negative) hp0 hrange
  have hdiv : one.div p = some x := hx
  refine ⟨float x, ?_⟩
  rw [decimalStep?_eq hone hpos hn, lowerOnce, hp, Option.bind_some, hdiv, Option.map_some]

end Json.Number

end SchemaCompiler
