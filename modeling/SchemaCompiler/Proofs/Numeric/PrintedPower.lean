import SchemaCompiler.Proofs.Numeric.DecimalText
import SchemaCompiler.Proofs.Numeric.PowerOfTen

/-!
# Powers of ten as they are printed

The limits of digits and the steps of their places against the numbers that they are printed as.
No number that the comparison puts within a power of ten is printed beyond it
(`Json.Number.printed_le_of_compare`, `Json.Number.neg_le_printed_of_compare`).  A step is printed
as a number between zero and twice the decimal place, and as the place itself exactly if it is the
nearest double (`Json.Number.printed_decimalStep`), which it is as long as doubles hold the power
of ten (`Json.Number.decimalStep?_eq_nearest`).
-/

namespace SchemaCompiler

namespace Binary64

variable {x y p : Binary64} {t : ℚ} {n : Nat} {power : ℤ}

/-! ### Doubles with some bits -/

/-- A double has some bits if there are some units near to it. -/
lemma significand_ge_of_contains (hx : 0 < x.significand) (h : x.roundingInterval.Contains t)
    (ht : 21 ≤ unit * t) : 20 ≤ x.significand := by
  by_contra hfew
  have hsignificand : (x.significand : ℚ) ≤ 19 := by
    exact_mod_cast (Nat.lt_succ_iff.mp (not_le.mp hfew))
  have hexponent : x.exponent = 0 := x.normal.resolve_right (by omega)
  have hplace : unit * x.place = 1 := by
    rw [place, hexponent, Nat.pow_zero, Nat.cast_one, mul_one_div_cancel cast_unit_pos.ne']
  have hsize : unit * x.size = x.significand := by
    rw [size_eq, mul_left_comm, hplace, mul_one]
  have hupper := mul_le_mul_of_nonneg_left (h.bounds hx).2 cast_unit_pos.le
  rw [mul_add, mul_div_assoc', hplace, hsize] at hupper
  linarith

/-- The double nearest a power of ten has some bits, and the power lies in its interval. -/
lemma contains_of_powerOfTen? (h : powerOfTen? n = some p) :
    20 ≤ p.significand ∧ p.roundingInterval.Contains (10 ^ (n : ℤ)) := by
  have hp := (of_powerOfTen? h).2.1
  have hquotient : ((Nat.pow 10 n : Nat) : ℚ) / (1 : Nat) = 10 ^ (n : ℤ) := by
    rw [Nat.pow_eq, Nat.cast_pow, Nat.cast_ofNat, Nat.cast_one, div_one, zpow_natCast]
  have hcontains := ((roundRatio_eq_some_iff_contains Nat.one_pos hp).mp h).2
  rw [hquotient] at hcontains
  refine ⟨significand_ge_of_contains hp hcontains ?_, hcontains⟩
  have hunits : 21 ≤ unit := by decide +kernel
  have hunits' : (21 : ℚ) ≤ unit := by exact_mod_cast hunits
  have hpower : (1 : ℚ) ≤ 10 ^ (n : ℤ) := one_le_zpow₀ (by norm_num) (Int.natCast_nonneg n)
  exact hunits'.trans (le_mul_of_one_le_right cast_unit_pos.le hpower)

/-! ### Limits -/

/-- The double nearest a power of ten has no sign. -/
lemma scaled_of_powerOfTen? (h : powerOfTen? n = some p) : p.scaled = p.magnitude := by
  rw [scaled, (of_powerOfTen? h).1, if_neg Bool.false_ne_true]

/-- A size is printed as no less than zero. -/
lemma shortestSize_nonneg (x : Binary64) : 0 ≤ x.shortestSize := by
  unfold shortestSize
  split
  · exact le_rfl
  · exact x.shortest.value_nonneg

/-- What is no larger than the double nearest a power of ten is not printed beyond the power. -/
lemma shortestSize_le (hp : powerOfTen? n = some p) (h : x.magnitude ≤ p.magnitude) :
    x.shortestSize ≤ 10 ^ n := by
  obtain ⟨hbits, hcontains⟩ := contains_of_powerOfTen? hp
  unfold shortestSize
  split
  · positivity
  · next hzero =>
    have hx : 0 < x.significand := Nat.pos_of_ne_zero (by simpa [isZero] using hzero)
    rcases Nat.lt_or_eq_of_le h with hlt | heq
    · have hle := le_of_contains (contains_shortest hx) hcontains (size_lt_size_iff.mpr hlt)
      rwa [zpow_natCast] at hle
    · -- The double is printed as the power, which lies in its interval.
      obtain ⟨hsignificand, hexponent⟩ := parts_eq_of_magnitude_eq heq
      have hinterval : x.roundingInterval = p.roundingInterval := by
        rw [roundingInterval, roundingInterval, heq, hsignificand, hexponent]
      rw [← hinterval] at hcontains
      have hvalue := shortest_value_of_power (hsignificand ▸ hbits) hcontains
      rw [hvalue, zpow_natCast]

/-- A double up to the one nearest a power of ten is not printed beyond the power. -/
lemma shortestValue_le (hp : powerOfTen? n = some p) (h : x.scaled ≤ p.magnitude) :
    x.shortestValue ≤ 10 ^ n := by
  unfold scaled at h
  unfold shortestValue
  split at h
  · next hsign =>
    have hpower : (0 : ℚ) < 10 ^ n := by positivity
    have hsize := x.shortestSize_nonneg
    rw [if_pos hsign]
    linarith
  · next hsign =>
    rw [if_neg hsign]
    exact shortestSize_le hp (Int.ofNat_le.mp h)

/-- A double from the opposite of the one nearest a power of ten is not printed below the opposite
of the power. -/
lemma neg_le_shortestValue (hp : powerOfTen? n = some p) (h : -(p.magnitude : ℤ) ≤ x.scaled) :
    -10 ^ n ≤ x.shortestValue := by
  unfold scaled at h
  unfold shortestValue
  split at h
  · next hsign =>
    rw [if_pos hsign]
    exact neg_le_neg (shortestSize_le hp (by omega))
  · next hsign =>
    have hpower : (0 : ℚ) < 10 ^ n := by positivity
    have hsize := x.shortestSize_nonneg
    rw [if_neg hsign]
    linarith

/-! ### Steps -/

/-- A double above zero is printed as its shortest digits. -/
lemma shortestValue_of_pos (hsign : x.negative = false) (hx : 0 < x.significand) :
    x.shortestValue = x.shortest.value := by
  have hzero : ¬x.isZero = true := by simpa [isZero] using hx.ne'
  rw [shortestValue, hsign, if_neg Bool.false_ne_true, shortestSize, if_neg hzero]

/-- One divided by the double nearest a power of ten. -/
lemma of_one_div {one : Binary64} (hsign : one.negative = false) (hone : one.magnitude = unit)
    (hp : powerOfTen? n = some p) (hx : one.div p = some x) :
    x.negative = false ∧ 20 ≤ x.significand ∧ x.roundingInterval.Contains p.size⁻¹ := by
  obtain ⟨hpositive, hsignificand, hmagnitude⟩ := of_powerOfTen? hp
  have hsmall := p.magnitude_le
  have hden : 0 < p.magnitude := unit_pos.trans_le hmagnitude
  rw [div, hsign, hpositive, hone] at hx
  have hx0 : 0 < x.significand := significand_pos_of_roundRatio unit_pos (by omega) hx
  obtain ⟨hnegative, hcontains⟩ := (roundRatio_eq_some_iff_contains hden hx0).mp hx
  rw [← inv_div, ← size] at hcontains
  refine ⟨hnegative, significand_ge_of_contains hx0 hcontains ?_, hcontains⟩
  have hden' : (0 : ℚ) < p.magnitude := Nat.cast_pos.mpr hden
  have hunits : 21 * p.magnitude ≤ unit * unit := by omega
  rw [size, inv_div, mul_div_assoc', le_div_iff₀ hden']
  exact_mod_cast hunits

/-- Doubles hold the powers of ten as long as they hold those of five. -/
lemma size_of_powerOfTen? (hn : n ≤ 22) (hp : powerOfTen? n = some p) : p.size = 10 ^ n := by
  obtain ⟨places, -, hunit⟩ := exists_unit_eq
  have hten : 10 ^ n * unit = 5 ^ n * 2 ^ (n + places) := by
    rw [hunit, Nat.pow_add, ← Nat.mul_assoc, ← Nat.mul_pow]
  have hfive : 5 ^ n ≤ 2 ^ 53 := (Nat.pow_le_pow_right (by decide) hn).trans (by decide)
  have hmagnitude : p.magnitude = 10 ^ n * unit := by
    rw [powerOfTen?_eq_ofInt?] at hp
    rw [(magnitude_of_ofInt? hp).2, Int.natAbs_natCast, Nat.pow_eq, hten, rounded_mul_two_pow hfive]
  rw [size, hmagnitude, Nat.cast_mul, mul_div_cancel_right₀ _ cast_unit_pos.ne', Nat.cast_pow,
    Nat.cast_ofNat]

end Binary64

namespace Json.Number

variable {a limit step : Number} {n : Nat} {p : Binary64}

/-- The double nearest to a limit is the one nearest to the power of ten. -/
lemma nearest_of_powerOfTen? (hn : n ≤ maxPower) (hp : Binary64.powerOfTen? n = some p)
    (hlimit : powerOfTen? n = some limit) : limit.nearest = p.magnitude := by
  rw [nearest, double?_of_powerOfTen? hn hlimit, hp, Option.map_some, Option.getD_some,
    Binary64.scaled_of_powerOfTen? hp]

/-- The opposite of a limit is an integer as long as 64 bits with sign hold it. -/
lemma negate_of_powerOfTen? (hn : n ≤ maxPower) (hp : Binary64.powerOfTen? n = some p)
    (hlimit : powerOfTen? n = some limit) : limit.negate =
      if (10 ^ n : Nat) ≤ maxSigned then int (-(10 ^ n : Nat)) else float p.neg := by
  have hdouble := double?_of_powerOfTen? hn hlimit
  rw [hp] at hdouble
  rw [powerOfTen?_eq hn, hp] at hlimit
  split at hlimit
  · cases hlimit
    have hleast : minSigned < (10 ^ n : Nat) :=
      lt_of_lt_of_le (by decide) (Int.natCast_nonneg (10 ^ n))
    have hopposite : Binary64.ofInt? (10 ^ n : Nat) = some p := hdouble
    rw [negate, hopposite, Option.map_some, Option.getD_some]
    simp only [hleast, true_and]
  · next hbig =>
    cases hlimit
    unfold maxUnsigned at hbig
    unfold maxSigned
    rw [negate, if_neg (by omega)]

/-- The double nearest to its opposite is the opposite double. -/
lemma nearest_negate_of_powerOfTen? (hn : n ≤ maxPower) (hp : Binary64.powerOfTen? n = some p)
    (hlimit : powerOfTen? n = some limit) : limit.negate.nearest = -(p.magnitude : ℤ) := by
  have hfits := (fits_of_powerOfTen? hlimit).negate
  rw [negate_of_powerOfTen? hn hp hlimit] at hfits ⊢
  split
  · next hsmall =>
    rw [if_pos hsmall] at hfits
    obtain ⟨x, hx⟩ := hfits.exists_double?
    obtain ⟨hnegative, hmagnitude⟩ := Binary64.magnitude_of_ofInt? hx
    rw [Binary64.powerOfTen?_eq_ofInt?] at hp
    have hsame : x.magnitude = p.magnitude := by
      rw [hmagnitude, (Binary64.magnitude_of_ofInt? hp).2, Int.natAbs_neg]
      rfl
    have hpower : (0 : ℤ) < (10 ^ n : Nat) := Int.natCast_pos.mpr (Nat.pow_pos (by decide))
    have hbelow : x.negative = true := by
      rw [hnegative, decide_eq_true_eq]
      exact Int.neg_neg_of_pos hpower
    rw [nearest, hx, Option.map_some, Option.getD_some, Binary64.scaled, if_pos hbelow, hsame]
  · change p.neg.scaled = _
    rw [Binary64.scaled_neg, Binary64.scaled_of_powerOfTen? hp]

/-- A number that a limit does not come before is not printed beyond the power of ten. -/
theorem printed_le_of_compare (hn : n ≤ maxPower) (hlimit : powerOfTen? n = some limit)
    (ha : a.Fits) (h : limit.compare a ≠ .lt) : a.printed ≤ 10 ^ n := by
  obtain ⟨p, hp⟩ := Binary64.exists_powerOfTen? hn
  cases a with
  | int m =>
    have hle : m ≤ (10 ^ n : Nat) := by
      rw [powerOfTen?_eq hn, hp] at hlimit
      split at hlimit
      · cases hlimit
        rw [compare_int, Ne, Int.compare_eq_lt] at h
        exact not_lt.mp h
      · next hbig =>
        have hgreatest := ha.2
        omega
    rw [printed_int]
    exact_mod_cast hle
  | float x =>
    have hmixed : ¬(limit.isInt = true ∧ (float x).isInt = true) := fun hints => by cases hints.2
    rw [compare_eq_nearest (fits_of_powerOfTen? hlimit) ha hmixed,
      nearest_of_powerOfTen? hn hp hlimit, Ne, Int.compare_eq_lt] at h
    rw [printed_float]
    exact Binary64.shortestValue_le hp (not_lt.mp h)

/-- A number that does not come before the opposite of a limit is not printed below the opposite of
the power of ten. -/
theorem neg_le_printed_of_compare (hn : n ≤ maxPower) (hlimit : powerOfTen? n = some limit)
    (ha : a.Fits) (h : limit.negate.compare a ≠ .gt) : -10 ^ n ≤ a.printed := by
  obtain ⟨p, hp⟩ := Binary64.exists_powerOfTen? hn
  cases a with
  | int m =>
    have hle : -((10 ^ n : Nat) : ℤ) ≤ m := by
      rw [negate_of_powerOfTen? hn hp hlimit] at h
      split at h
      · rw [compare_int, Ne, Int.compare_eq_gt] at h
        exact not_lt.mp h
      · next hbig =>
        have hleast := ha.1
        unfold maxSigned at hbig
        unfold minSigned at hleast
        omega
    rw [printed_int]
    exact_mod_cast hle
  | float x =>
    have hmixed : ¬(limit.negate.isInt = true ∧ (float x).isInt = true) :=
      fun hints => by cases hints.2
    rw [compare_eq_nearest (fits_of_powerOfTen? hlimit).negate ha hmixed,
      nearest_negate_of_powerOfTen? hn hp hlimit, Ne, Int.compare_eq_gt] at h
    rw [printed_float]
    exact Binary64.neg_le_shortestValue hp (not_lt.mp h)

/-- The step of a decimal place is a double above zero, the nearest to one divided by the double of
the power of ten. -/
lemma exists_of_decimalStep? (hpos : 0 < n) (hn : n ≤ maxPower)
    (hp : Binary64.powerOfTen? n = some p) (hstep : decimalStep? n = some step) :
    ∃ x, step = float x ∧ x.negative = false ∧ 20 ≤ x.significand ∧
      x.roundingInterval.Contains p.size⁻¹ := by
  obtain ⟨one, hone, hsign, hmagnitude⟩ := Binary64.exists_ofInt?_one
  rw [decimalStep?_eq hone hpos hn, lowerOnce, hp, Option.bind_some] at hstep
  obtain ⟨x, hx, rfl⟩ := Option.map_eq_some_iff.mp hstep
  exact ⟨x, rfl, Binary64.of_one_div hsign hmagnitude hp hx⟩

/-- A double is nearest to a decimal place if the place lies in its interval. -/
lemma map_roundRatio_eq_some_iff {x : Binary64} (hx : 0 < x.significand)
    (hsign : x.negative = false) :
    (Binary64.roundRatio false 1 (10 ^ n)).map float = some (float x) ↔
      x.roundingInterval.Contains (10 ^ n)⁻¹ := by
  have hten : 0 < 10 ^ n := Nat.pow_pos (by decide)
  have hplace : ((1 : Nat) : ℚ) / ((10 ^ n : Nat) : ℚ) = (10 ^ n)⁻¹ := by
    rw [Nat.cast_one, one_div, Nat.cast_pow, Nat.cast_ofNat]
  rw [Option.map_eq_some_iff, ← hplace]
  constructor
  · rintro ⟨y, hy, hxy⟩
    cases hxy
    exact ((Binary64.roundRatio_eq_some_iff_contains hten hx).mp hy).2
  · intro hcontains
    exact ⟨x, (Binary64.roundRatio_eq_some_iff_contains hten hx).mpr ⟨hsign, hcontains⟩, rfl⟩

/-- A step is printed as a number between zero and twice the decimal place, and as the place itself
exactly if it is the nearest double. -/
theorem printed_decimalStep (hpos : 0 < n) (hn : n ≤ maxPower)
    (hstep : decimalStep? n = some step) :
    0 < step.printed ∧ step.printed < 2 * (10 ^ n)⁻¹ ∧
      (step.printed = (10 ^ n)⁻¹ ↔
        decimalStep? n = (Binary64.roundRatio false 1 (10 ^ n)).map float) := by
  obtain ⟨p, hp⟩ := Binary64.exists_powerOfTen? hn
  obtain ⟨hbits, hpower⟩ := Binary64.contains_of_powerOfTen? hp
  obtain ⟨x, rfl, hsign, hbits', hquotient⟩ := exists_of_decimalStep? hpos hn hp hstep
  have hx : 0 < x.significand := by omega
  have hshortest := Binary64.contains_shortest hx
  rw [printed_float, Binary64.shortestValue_of_pos hsign hx]
  refine ⟨hshortest.pos hx, ?_, ?_⟩
  · -- Each of three roundings changes a number by less than a thirtieth.
    have hp0 : 0 < p.size := Binary64.size_pos (by omega)
    have hten : (0 : ℚ) < 10 ^ n := by positivity
    have hnear := (hpower.near hbits).2
    have hnear' := (hquotient.near hbits').1
    have hnear'' := (hshortest.near hbits').2
    rw [zpow_natCast] at hnear
    have hstep_le : x.shortest.value ≤ 41 / 39 * p.size⁻¹ := by linarith
    have hpower_le : (10 : ℚ) ^ n ≤ 41 / 40 * p.size := by linarith
    have hproduct : x.shortest.value * 10 ^ n ≤ 41 / 39 * p.size⁻¹ * (41 / 40 * p.size) :=
      mul_le_mul hstep_le hpower_le hten.le (by positivity)
    have hcancel : 41 / 39 * p.size⁻¹ * (41 / 40 * p.size) = 1681 / 1560 := by
      rw [mul_mul_mul_comm, inv_mul_cancel₀ hp0.ne']
      norm_num
    rw [hcancel] at hproduct
    rw [← div_eq_mul_inv, lt_div_iff₀ hten]
    linarith
  · rw [hstep, eq_comm (a := some _), map_roundRatio_eq_some_iff hx hsign]
    constructor
    · intro hvalue
      rwa [← hvalue]
    · intro hcontains
      have hplace : (10 ^ n : ℚ)⁻¹ = 10 ^ (-(n : ℤ)) := by rw [zpow_neg, zpow_natCast]
      rw [hplace] at hcontains ⊢
      exact Binary64.shortest_value_of_power hbits' hcontains

/-- A step is the nearest double as long as doubles hold the power of ten. -/
theorem decimalStep?_eq_nearest (hpos : 0 < n) (hn : n ≤ 22) :
    decimalStep? n = (Binary64.roundRatio false 1 (10 ^ n)).map float := by
  have hmax : n ≤ maxPower := by
    unfold maxPower
    omega
  obtain ⟨p, hp⟩ := Binary64.exists_powerOfTen? hmax
  obtain ⟨step, hstep⟩ := exists_decimalStep? hpos hmax
  obtain ⟨x, rfl, hsign, hbits, hquotient⟩ := exists_of_decimalStep? hpos hmax hp hstep
  rw [Binary64.size_of_powerOfTen? hn hp] at hquotient
  rw [hstep, eq_comm, map_roundRatio_eq_some_iff (by omega) hsign]
  exact hquotient

end Json.Number

end SchemaCompiler
