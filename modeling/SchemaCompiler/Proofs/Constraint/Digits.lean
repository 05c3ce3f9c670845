import SchemaCompiler.Proofs.Constraint.Conflicts
import SchemaCompiler.Proofs.Constraint.Bounds
import SchemaCompiler.Proofs.Numeric.PrintedPower

/-!
# What digits admit

The values that satisfy the exclusive bounds and the step of a number with one `digits` constraint,
whatever stands beside it, when the keywords are read as they are printed
(`Mapping.admitted_of_digits`).  They have no more digits before the point than the constraint says.
They have no more digits after it exactly if there is a step and it is the nearest double of the
decimal place: otherwise the step itself is admitted, and it is no multiple of the place.
-/

namespace SchemaCompiler

/-- A value is a multiple of the step, if there is one, as it is printed. -/
def Keywords.AdmitsStep (k : Keywords) (x : ℚ) : Prop :=
  ∀ step ∈ k.multipleOf, ∃ m : ℤ, x = m * step.printed

/-- A value lies between the exclusive bounds and is a multiple of the step, as they are printed. -/
structure Keywords.AdmitsPrinted (k : Keywords) (x : ℚ) : Prop where
  below : ∀ limit ∈ k.exclusiveMaximum, x < limit.printed
  above : ∀ limit ∈ k.exclusiveMinimum, limit.printed < x
  multiple : k.AdmitsStep x

/-- A value has so many digits after the point, or fewer. -/
def HasPlaces (places : Nat) (x : ℚ) : Prop := ∃ m : ℤ, x = m / 10 ^ places

/-- Whether a constraint is one of digits. -/
def Constraint.isDigits : Constraint → Bool
  | digits _ _ => true
  | _ => false

/-- The multiples of a number below twice a decimal place have its digits exactly if the number is
the place. -/
lemma multiples_hasPlaces_iff {step : ℚ} {places : Nat} (hpos : 0 < step)
    (hstep : step < 2 * (10 ^ places)⁻¹) :
    (∀ x, (∃ m : ℤ, x = m * step) → HasPlaces places x) ↔ step = (10 ^ places)⁻¹ := by
  have hten : (0 : ℚ) < 10 ^ places := by positivity
  constructor
  · intro hmultiples
    obtain ⟨m, hm⟩ := hmultiples step ⟨1, by rw [Int.cast_one, one_mul]⟩
    rw [hm, ← div_eq_mul_inv] at hstep
    rw [hm] at hpos
    have hlower : (0 : ℚ) < m := (div_pos_iff_of_pos_right hten).mp hpos
    have hupper : (m : ℚ) < 2 := (div_lt_div_iff_of_pos_right hten).mp hstep
    have hlower' : 0 < m := by exact_mod_cast hlower
    have hupper' : m < 2 := by exact_mod_cast hupper
    obtain rfl : m = 1 := by omega
    rw [hm, Int.cast_one, one_div]
  · rintro rfl x ⟨m, rfl⟩
    exact ⟨m, (div_eq_mul_inv _ _).symm⟩

namespace Mapping

open Constraint

variable {shape : Shape} {constraints : List Constraint} {keyword : Keywords.Bound}
  {limit : Json.Number} {integer fraction : Nat}

/-! ### Bounds -/

/-- Admitted values have no more digits before the point than a constraint says. -/
lemma abs_lt_of_admitsPrinted (hfits : ∀ c ∈ constraints, c.Fits)
    (hmem : digits integer fraction ∈ constraints) (hinteger : integer ≤ maxDigits)
    (hfraction : fraction ≤ maxDigits) {x : ℚ}
    (hx : (ofConstraints .number constraints).keywords.AdmitsPrinted x) :
    |x| < 10 ^ integer := by
  obtain ⟨limit, hlimit⟩ := Json.Number.exists_powerOfTen? hinteger
  have hupper : limit ∈ limited .number constraints .exclusiveMaximum :=
    ⟨rfl, _, hmem, .digitsBelow hinteger hfraction hlimit⟩
  have hlower : limit.negate ∈ limited .number constraints .exclusiveMinimum :=
    ⟨rfl, _, hmem, .digitsAbove hinteger hfraction hlimit⟩
  obtain ⟨greatest, hgreatest, hgreatestFits, hcompare⟩ := exists_kept hfits hupper
  obtain ⟨least, hleast, hleastFits, hcompare'⟩ := exists_kept hfits hlower
  rw [abs_lt]
  constructor
  · have hle := Json.Number.neg_le_printed_of_compare hinteger hlimit hleastFits hcompare'
    exact hle.trans_lt (hx.above least hleast)
  · have hle := Json.Number.printed_le_of_compare hinteger hlimit hgreatestFits hcompare
    exact (hx.below greatest hgreatest).trans_le hle

/-! ### Steps -/

/-- Steps are given by digits alone. -/
lemma given_step_filter (constraints : List Constraint) :
    given Constraint.step? (constraints.filter (·.isDigits)) =
      given Constraint.step? constraints := by
  unfold given
  rw [List.filterMap_filter]
  congr 1
  funext c
  cases c with
  | digits integer fraction => rfl
  | _ => rfl

/-- The step is that of the only digits, if these ask for any after the point. -/
lemma multipleOf_of_digits (hdigits : constraints.filter (·.isDigits) = [digits integer fraction])
    (happlies : (digits integer fraction).Applies shape) :
    (ofConstraints shape constraints).keywords.multipleOf =
      if fraction = 0 then none else Json.Number.decimalStep? fraction := by
  have honly : applicable shape [digits integer fraction] = [digits integer fraction] :=
    List.filter_eq_self.mpr (by simpa using happlies)
  have hsteps : given Constraint.step? (applicable shape constraints) =
      given Constraint.step? [digits integer fraction] := by
    rw [← given_step_filter, ← honly, ← hdigits]
    exact congrArg (given Constraint.step?) (List.filter_comm _ _ _)
  have hstep : (digits integer fraction).step? =
      if fraction = 0 then none else Json.Number.decimalStep? fraction := by
    rw [Constraint.step?, Constraint.fraction?]
    split
    · rfl
    · rfl
  rw [(gathers_ofConstraints shape constraints).multipleOf, hsteps, ← hstep]
  cases hvalue : (digits integer fraction).step? with
  | none => simp [given, hvalue]
  | some step => simp [given, hvalue]

/-- A half has no digits after the point only if some are allowed. -/
lemma not_hasPlaces_half : ¬HasPlaces 0 (1 / 2) := by
  rintro ⟨m, hm⟩
  have htwice : (2 * m : ℚ) = 1 := by
    rw [pow_zero, div_one] at hm
    linarith
  have htwice' : 2 * m = 1 := by exact_mod_cast htwice
  omega

/-- The multiples of the step have no more digits after the point than the only digits say exactly
if there is a step and it is the nearest double of the decimal place. -/
lemma admitsStep_hasPlaces_iff
    (hdigits : constraints.filter (·.isDigits) = [digits integer fraction])
    (happlies : (digits integer fraction).Applies shape) :
    (∀ x, (ofConstraints shape constraints).keywords.AdmitsStep x → HasPlaces fraction x) ↔
      0 < fraction ∧ Json.Number.decimalStep? fraction =
        (Binary64.roundRatio false 1 (10 ^ fraction)).map Json.Number.float := by
  have hmultipleOf := multipleOf_of_digits hdigits happlies
  unfold Keywords.AdmitsStep
  rw [hmultipleOf]
  by_cases hzero : fraction = 0
  · -- Without a step every value is admitted.
    subst hzero
    rw [if_pos rfl]
    refine iff_of_false (fun hall => not_hasPlaces_half ?_) fun hboth => lt_irrefl 0 hboth.1
    exact hall _ nofun
  · have hpos : 0 < fraction := Nat.pos_of_ne_zero hzero
    obtain ⟨step, hstep⟩ := Json.Number.exists_decimalStep? hpos happlies.2.2
    obtain ⟨hlower, hupper, hnearest⟩ := Json.Number.printed_decimalStep hpos happlies.2.2 hstep
    rw [if_neg hzero, and_iff_right hpos, ← hnearest, ← multiples_hasPlaces_iff hlower hupper]
    simp [hstep]

/-- Digits limit both parts of a number as far as the doubles reach: for every list of constraints
on a number with one `digits` among them, the values that lie between the exclusive bounds, as they
are printed, have no more digits before the point than it says.  The multiples of the step, as it is
printed, have no more digits after the point than it says exactly if it asks for a digit there and
the step is the nearest double of the decimal place; this holds up to twenty-two digits. -/
theorem admitted_of_digits (hfits : ∀ c ∈ constraints, c.Fits)
    (hdigits : constraints.filter (·.isDigits) = [digits integer fraction])
    (hinteger : integer ≤ maxDigits) (hfraction : fraction ≤ maxDigits) :
    (∀ x, (ofConstraints .number constraints).keywords.AdmitsPrinted x → |x| < 10 ^ integer) ∧
      ((∀ x, (ofConstraints .number constraints).keywords.AdmitsStep x → HasPlaces fraction x) ↔
        0 < fraction ∧ Json.Number.decimalStep? fraction =
          (Binary64.roundRatio false 1 (10 ^ fraction)).map Json.Number.float) ∧
      (0 < fraction → fraction ≤ 22 →
        ∀ x, (ofConstraints .number constraints).keywords.AdmitsPrinted x →
          |x| < 10 ^ integer ∧ HasPlaces fraction x) := by
  have happlies : (digits integer fraction).Applies .number := ⟨rfl, hinteger, hfraction⟩
  have hmem : digits integer fraction ∈ constraints := by
    have hfilter : digits integer fraction ∈ constraints.filter (·.isDigits) := by
      rw [hdigits]
      exact List.mem_singleton_self _
    exact List.mem_of_mem_filter hfilter
  have hbounds : ∀ x, (ofConstraints .number constraints).keywords.AdmitsPrinted x →
      |x| < 10 ^ integer := fun x hx => abs_lt_of_admitsPrinted hfits hmem hinteger hfraction hx
  have hplaces := admitsStep_hasPlaces_iff hdigits happlies
  refine ⟨hbounds, hplaces, fun hpos hfew x hx => ⟨hbounds x hx, ?_⟩⟩
  exact hplaces.mpr ⟨hpos, Json.Number.decimalStep?_eq_nearest hpos hfew⟩ x hx.multiple

/-- A positive number up to five with a digit before the point and twenty-five after it. -/
def fineDigits : List Constraint := [.positive, .digits 1 25, .max 5]

/-- Its step, which is not the nearest double of the decimal place. -/
def fineStep : Binary64 :=
  ⟨false, 8711228593176024, 938, by decide, by decide, .inr (by decide)⟩

/-- The step for twenty-five digits is printed as `9.999999999999999e-26`, and so this number is
admitted, which has forty-one digits.  Two digits after the point are kept. -/
theorem admitted_of_fineDigits :
    (∀ c ∈ fineDigits, c.Fits) ∧ fineDigits.filter (·.isDigits) = [.digits 1 25] ∧
      (∀ x, (ofConstraints .number fineDigits).keywords.AdmitsPrinted x → |x| < 10 ^ 1) ∧
      ¬(∀ x, (ofConstraints .number fineDigits).keywords.AdmitsStep x → HasPlaces 25 x) ∧
      (ofConstraints .number fineDigits).keywords.AdmitsPrinted (9999999999999999 / 10 ^ 41) ∧
      ¬HasPlaces 25 (9999999999999999 / 10 ^ 41) ∧
      ∀ x, (ofConstraints .number [.digits 3 2, .min 5]).keywords.AdmitsPrinted x →
        |x| < 10 ^ 3 ∧ HasPlaces 2 x := by
  have hfits : ∀ c ∈ fineDigits, c.Fits := by
    simp only [fineDigits, List.forall_mem_cons, Constraint.Fits, Json.Number.minSigned,
      Json.Number.maxSigned]
    simp
  have hfits' : ∀ c ∈ [Constraint.digits 3 2, .min 5], c.Fits := by
    simp only [List.forall_mem_cons, Constraint.Fits, Json.Number.minSigned,
      Json.Number.maxSigned]
    simp
  have hdigits : fineDigits.filter (·.isDigits) = [.digits 1 25] := rfl
  obtain ⟨hbounds, hplaces, -⟩ := admitted_of_digits hfits hdigits (by decide) (by decide)
  have hdigits' : [Constraint.digits 3 2, .min 5].filter (·.isDigits) = [.digits 3 2] := rfl
  obtain ⟨-, -, hcoarse⟩ := admitted_of_digits hfits' hdigits' (by decide) (by decide)
  have hnearest : Json.Number.decimalStep? 25 ≠
      (Binary64.roundRatio false 1 (10 ^ 25)).map Json.Number.float := by decide +kernel
  have hgreatest : (ofConstraints .number fineDigits).keywords.exclusiveMaximum =
      some (.int 10) := by decide +kernel
  have hleast : (ofConstraints .number fineDigits).keywords.exclusiveMinimum =
      some (.int 0) := by decide +kernel
  have hstep : (ofConstraints .number fineDigits).keywords.multipleOf =
      some (.float fineStep) := by decide +kernel
  have hshortest : fineStep.shortest = ⟨9999999999999999, -41⟩ := by decide +kernel
  have hprinted : (Json.Number.float fineStep).printed = 9999999999999999 / 10 ^ 41 := by
    rw [Json.Number.printed_float, Binary64.shortestValue_of_pos rfl (by decide), hshortest,
      DecimalDigits.value]
    norm_num
  refine ⟨hfits, hdigits, hbounds, fun hall => hnearest (hplaces.mp hall).2, ⟨?_, ?_, ?_⟩, ?_,
    hcoarse (by decide) (by decide)⟩
  · intro limit hlimit
    obtain rfl : .int 10 = limit := Option.some.inj (hgreatest.symm.trans hlimit)
    rw [Json.Number.printed_int]
    norm_num
  · intro limit hlimit
    obtain rfl : .int 0 = limit := Option.some.inj (hleast.symm.trans hlimit)
    rw [Json.Number.printed_int]
    norm_num
  · intro step hstep'
    obtain rfl : .float fineStep = step := Option.some.inj (hstep.symm.trans hstep')
    exact ⟨1, by rw [hprinted, Int.cast_one, one_mul]⟩
  · rintro ⟨m, hm⟩
    have hscaled : (m * 10 ^ 16 : ℚ) = 9999999999999999 := by
      rw [eq_div_iff (by norm_num)] at hm
      linarith
    have hscaled' : m * 10 ^ 16 = 9999999999999999 := by exact_mod_cast hscaled
    omega

end Mapping

end SchemaCompiler
