import Mathlib.Algebra.Group.Nat.Defs
import Mathlib.Data.Nat.Log
import SchemaCompiler.Proofs.Numeric.Rounding

/-!
# The order of numbers

Two integers are compared exactly, and other pairs of numbers by their nearest doubles, so an
integer and a double can be equal although another integer lies strictly between them.  Rounding
keeps the order of integers (`Binary64.scaled_mono`), and every integer of 64 bits has a nearest
double (`Binary64.exists_ofInt?`).  Hence to be strictly greater is transitive on the numbers that
64 bits hold (`Json.Number.compare_gt_trans`), although to be equal is not.
-/

namespace SchemaCompiler

/-! ### Rounding quotients -/

section Quotients

variable {num num' den : Nat}

/-- A quotient is not rounded below its floor. -/
lemma div_le_roundQuotient : num / den ≤ roundQuotient num den := by
  unfold roundQuotient
  dsimp only
  repeat' split
  all_goals omega

/-- A quotient is rounded to its floor or to the next integer. -/
lemma roundQuotient_le : roundQuotient num den ≤ num / den + 1 := by
  unfold roundQuotient
  dsimp only
  repeat' split
  all_goals omega

/-- A larger numerator gives no smaller rounded quotient. -/
lemma roundQuotient_mono (h : num ≤ num') : roundQuotient num den ≤ roundQuotient num' den := by
  have hfloor : num / den ≤ num' / den := Nat.div_le_div_right h
  rcases Nat.lt_or_eq_of_le hfloor with hlt | heq
  · have hle : num / den + 1 ≤ num' / den := hlt
    exact roundQuotient_le.trans (hle.trans div_le_roundQuotient)
  · -- The remainders are in order, and a tie is decided by the common floor.
    have hmod : num % den ≤ num' % den := by
      have hnum := Nat.div_add_mod num den
      have hnum' := Nat.div_add_mod num' den
      rw [← heq] at hnum'
      omega
    unfold roundQuotient
    dsimp only
    rw [← heq]
    repeat' split
    all_goals omega

end Quotients

namespace Binary64

/-! ### Rounding whole numbers of units -/

/-- The exponent of the double nearest a number of units. -/
def exponentOf (total : Nat) : Nat := Nat.log2 total - 52

/-- The significand of the double nearest a number of units, before it is brought below `2 ^ 53`. -/
def significandOf (total : Nat) : Nat := roundQuotient total (2 ^ exponentOf total)

/-- The number of units nearest a number of units. -/
def rounded (total : Nat) : Nat := significandOf total * 2 ^ exponentOf total

/-- The exponent grows with the number. -/
lemma exponentOf_mono {total total' : Nat} (h : total ≤ total') :
    exponentOf total ≤ exponentOf total' := by
  unfold exponentOf
  rw [Nat.log2_eq_log_two, Nat.log2_eq_log_two]
  exact Nat.sub_le_sub_right (Nat.log_mono_right h) 52

/-- A number of so many bits has an exponent 52 less. -/
lemma exponentOf_le {total bits : Nat} (h : total ≤ 2 ^ bits) : exponentOf total ≤ bits - 52 := by
  have hlimit : exponentOf (2 ^ bits) = bits - 52 := by rw [exponentOf, Nat.log2_two_pow]
  exact hlimit ▸ exponentOf_mono h

/-- A significand has at most 53 bits, or is the first number that has more. -/
lemma significandOf_le (total : Nat) : significandOf total ≤ 2 ^ 53 := by
  have hlog : total < 2 ^ (Nat.log2 total + 1) := Nat.lt_log2_self
  have hexponent : Nat.log2 total + 1 ≤ exponentOf total + 53 := by
    unfold exponentOf
    omega
  have htotal : total < 2 ^ 53 * 2 ^ exponentOf total := by
    rw [← Nat.pow_add, Nat.add_comm 53]
    exact hlog.trans_le (Nat.pow_le_pow_right Nat.zero_lt_two hexponent)
  have hfloor : total / 2 ^ exponentOf total < 2 ^ 53 :=
    Nat.div_lt_of_lt_mul (by rwa [Nat.mul_comm])
  exact roundQuotient_le.trans hfloor

/-- A significand above the least exponent has at least 53 bits. -/
lemma le_significandOf {total : Nat} (h : 0 < exponentOf total) : 2 ^ 52 ≤ significandOf total := by
  have hlog : Nat.log2 total = exponentOf total + 52 := by
    unfold exponentOf at h ⊢
    omega
  have htotal : total ≠ 0 := by
    rintro rfl
    simp [exponentOf] at h
  have hpower : 2 ^ 52 * 2 ^ exponentOf total ≤ total := by
    rw [← Nat.pow_add, Nat.add_comm 52, ← hlog]
    exact Nat.log2_self_le htotal
  have hfloor : 2 ^ 52 ≤ total / 2 ^ exponentOf total :=
    (Nat.le_div_iff_mul_le (Nat.two_pow_pos _)).mpr hpower
  exact hfloor.trans div_le_roundQuotient

/-- Rounding keeps the order of numbers of units. -/
theorem rounded_mono {total total' : Nat} (h : total ≤ total') :
    rounded total ≤ rounded total' := by
  unfold rounded
  rcases Nat.lt_or_eq_of_le (exponentOf_mono h) with hlt | heq
  · -- The first number is at most `2 ^ 53` steps, and the steps of the second are larger.
    have hpos : 0 < exponentOf total' := Nat.zero_lt_of_lt hlt
    calc significandOf total * 2 ^ exponentOf total
        ≤ 2 ^ 53 * 2 ^ exponentOf total := Nat.mul_le_mul_right _ (significandOf_le total)
      _ = 2 ^ 52 * 2 ^ (exponentOf total + 1) := by
          rw [← Nat.pow_add, ← Nat.pow_add]
          congr 1
          omega
      _ ≤ 2 ^ 52 * 2 ^ exponentOf total' :=
          Nat.mul_le_mul_left _ (Nat.pow_le_pow_right Nat.zero_lt_two hlt)
      _ ≤ significandOf total' * 2 ^ exponentOf total' :=
          Nat.mul_le_mul_right _ (le_significandOf hpos)
  · unfold significandOf
    rw [← heq]
    exact Nat.mul_le_mul_right _ (roundQuotient_mono h)

/-! ### Integers as doubles -/

/-- The double nearest an integer, by the parts that its number of units has. -/
lemma ofInt?_eq (n : Int) : ofInt? n =
    if significandOf (n.natAbs * unit) < 2 ^ 53 then
      ofParts? (n < 0) (significandOf (n.natAbs * unit)) (exponentOf (n.natAbs * unit))
    else ofParts? (n < 0) (2 ^ 52) (exponentOf (n.natAbs * unit) + 1) := by
  unfold ofInt? roundRatio significandOf exponentOf
  dsimp only
  rw [Nat.div_one, Nat.one_mul]
  rfl

/-- The double nearest an integer has the sign of the integer and its rounded distance from zero. -/
lemma magnitude_of_ofInt? {n : Int} {x : Binary64} (h : ofInt? n = some x) :
    x.negative = decide (n < 0) ∧ x.magnitude = rounded (n.natAbs * unit) := by
  rw [ofInt?_eq] at h
  generalize n.natAbs * unit = total at h ⊢
  unfold magnitude rounded
  split at h
  · obtain ⟨hsign, hsignificand, hexponent⟩ := ofParts?_eq_some h
    rw [hsignificand, hexponent]
    exact ⟨hsign, rfl⟩
  · next hcarry =>
    obtain ⟨hsign, hsignificand, hexponent⟩ := ofParts?_eq_some h
    have hlimit : significandOf total = 2 ^ 53 :=
      le_antisymm (significandOf_le total) (Nat.le_of_not_lt hcarry)
    refine ⟨hsign, ?_⟩
    rw [hsignificand, hexponent, hlimit]
    change 2 ^ 52 * 2 ^ (exponentOf total + 1) = 2 ^ 53 * 2 ^ exponentOf total
    rw [← Nat.pow_add, ← Nat.pow_add]
    congr 1
    omega

/-- Rounding keeps the order of integers. -/
theorem scaled_mono {m n : Int} {x y : Binary64} (h : m ≤ n) (hx : ofInt? m = some x)
    (hy : ofInt? n = some y) : x.scaled ≤ y.scaled := by
  obtain ⟨hxsign, hxmagnitude⟩ := magnitude_of_ofInt? hx
  obtain ⟨hysign, hymagnitude⟩ := magnitude_of_ofInt? hy
  unfold scaled
  rw [hxsign, hysign, hxmagnitude, hymagnitude]
  by_cases hm : m < 0
  · by_cases hn : n < 0
    · have hmagnitude : rounded (n.natAbs * unit) ≤ rounded (m.natAbs * unit) :=
        rounded_mono (Nat.mul_le_mul_right _ (by omega))
      simp only [hm, hn, decide_true, if_true]
      omega
    · simp only [hm, hn, decide_true, decide_false, if_true, Bool.false_eq_true, if_false]
      omega
  · have hn : ¬n < 0 := by omega
    have hmagnitude : rounded (m.natAbs * unit) ≤ rounded (n.natAbs * unit) :=
      rounded_mono (Nat.mul_le_mul_right _ (by omega))
    simp only [hm, hn, decide_false, Bool.false_eq_true, if_false]
    omega

/-- The unit is a power of two. -/
lemma exists_unit_eq : ∃ places ≤ 1074, unit = 2 ^ places := by
  -- The exponent is a variable here, because the power is too large to be written out.
  unfold unit
  generalize 1074 = places
  exact ⟨places, le_rfl, Nat.pow_eq⟩

/-- Canonical parts are those of a number. -/
lemma exists_ofParts? {negative : Bool} {significand exponent : Nat}
    (hsignificand : significand < 2 ^ 53) (hexponent : exponent ≤ 2045)
    (hnormal : exponent = 0 ∨ 2 ^ 52 ≤ significand) :
    ∃ x, ofParts? negative significand exponent = some x :=
  ⟨_, dif_pos ⟨hsignificand, hexponent, hnormal⟩⟩

/-- Integers of 64 bits have a nearest double. -/
theorem exists_ofInt? {n : Int} (h : n.natAbs ≤ 2 ^ 64) : ∃ x, ofInt? n = some x := by
  have hexponent : exponentOf (n.natAbs * unit) ≤ 2044 := by
    obtain ⟨places, hplaces, hunit⟩ := exists_unit_eq
    have htotal : n.natAbs * unit ≤ 2 ^ (64 + places) := by
      rw [hunit, Nat.pow_add]
      exact Nat.mul_le_mul_right _ h
    have hle := exponentOf_le htotal
    omega
  rw [ofInt?_eq]
  generalize n.natAbs * unit = total at hexponent ⊢
  by_cases hcarry : significandOf total < 2 ^ 53
  · rw [if_pos hcarry]
    refine exists_ofParts? hcarry (by omega) ?_
    rcases Nat.eq_zero_or_pos (exponentOf total) with hzero | hpos
    · exact Or.inl hzero
    · exact Or.inr (le_significandOf hpos)
  · rw [if_neg hcarry]
    exact exists_ofParts? (by omega) (by omega) (Or.inr le_rfl)

end Binary64

namespace Json.Number

variable {a b c : Number}

/-! ### Numbers that 64 bits hold -/

/-- A number is an integer of 64 bits, signed or not, or a double. -/
def Fits : Number → Prop
  | int n => minSigned ≤ n ∧ n ≤ maxUnsigned
  | float _ => True

/-- Numbers that 64 bits hold have a nearest double. -/
lemma Fits.exists_double? (h : a.Fits) : ∃ x, a.double? = some x := by
  cases a with
  | int n =>
    obtain ⟨hleast, hgreatest⟩ := h
    refine Binary64.exists_ofInt? ?_
    unfold minSigned at hleast
    unfold maxUnsigned at hgreatest
    omega
  | float x => exact ⟨x, rfl⟩

/-- The number of opposite sign fits as well. -/
lemma Fits.negate (h : a.Fits) : a.negate.Fits := by
  cases a with
  | int n =>
    obtain ⟨x, hx⟩ := h.exists_double?
    have hdouble : Binary64.ofInt? n = some x := hx
    have hopposite : (int n).negate =
        if minSigned < n ∧ n ≤ maxSigned then int (-n) else float x.neg := by
      rw [Number.negate.eq_1, hdouble]
      rfl
    rw [hopposite]
    split
    · next hsigned =>
      unfold minSigned maxSigned at hsigned
      change minSigned ≤ -n ∧ -n ≤ maxUnsigned
      unfold minSigned maxUnsigned
      omega
    · trivial
  | float x => trivial

/-- Powers of ten fit. -/
lemma fits_of_powerOfTen? {exponent : Nat} (h : powerOfTen? exponent = some a) : a.Fits := by
  unfold powerOfTen? at h
  dsimp only at h
  split at h
  · next hle =>
    cases h
    unfold Fits minSigned
    omega
  · obtain ⟨x, -, rfl⟩ := Option.map_eq_some_iff.mp h
    trivial

/-! ### The order -/

/-- Whether a number is an integer. -/
def isInt : Number → Bool
  | int _ => true
  | float _ => false

/-- The value of a number, in units of `2 ^ (-1074)`. -/
def scaled : Number → Int
  | int n => n * Binary64.unit
  | float x => x.scaled

/-- The value of the nearest double, in its unit. -/
def nearest (a : Number) : Int := (a.double?.map (·.scaled)).getD 0

/-- Two integers are compared exactly. -/
lemma compare_int (m n : Int) : (int m).compare (int n) = Ord.compare m n := rfl

/-- Two numbers that are integers. -/
lemma exists_int (h : a.isInt = true ∧ b.isInt = true) : ∃ m n, a = int m ∧ b = int n := by
  cases a with
  | int m =>
    cases b with
    | int n => exact ⟨m, n, rfl, rfl⟩
    | float y => cases h.2
  | float x => cases h.1

/-- Other pairs of numbers are compared by their nearest doubles. -/
lemma compare_eq_nearest (ha : a.Fits) (hb : b.Fits) (h : ¬(a.isInt = true ∧ b.isInt = true)) :
    a.compare b = Ord.compare a.nearest b.nearest := by
  have hmixed : ∀ m n, a = int m → b = int n → False := by
    rintro m n rfl rfl
    exact h ⟨rfl, rfl⟩
  obtain ⟨x, hx⟩ := ha.exists_double?
  obtain ⟨y, hy⟩ := hb.exists_double?
  unfold nearest
  rw [Number.compare.eq_2 a b hmixed, hx, hy]
  rfl

/-- Rounding to the nearest double keeps the order of integers. -/
lemma nearest_mono {m n : Int} (hm : (int m).Fits) (hn : (int n).Fits) (h : m ≤ n) :
    (int m).nearest ≤ (int n).nearest := by
  obtain ⟨x, hx⟩ := hm.exists_double?
  obtain ⟨y, hy⟩ := hn.exists_double?
  unfold nearest
  rw [hx, hy]
  exact Binary64.scaled_mono h hx hy

/-- Of two numbers that are not both integers, the greater has the greater double. -/
lemma nearest_lt_of_compare (ha : a.Fits) (hb : b.Fits) (h : ¬(a.isInt = true ∧ b.isInt = true))
    (hgreater : a.compare b = .gt) : b.nearest < a.nearest := by
  rw [compare_eq_nearest ha hb h] at hgreater
  exact Int.compare_eq_gt.mp hgreater

/-- The greater of two numbers does not have the smaller double. -/
lemma nearest_le_of_compare (ha : a.Fits) (hb : b.Fits) (hgreater : a.compare b = .gt) :
    b.nearest ≤ a.nearest := by
  by_cases h : a.isInt = true ∧ b.isInt = true
  · obtain ⟨m, n, rfl, rfl⟩ := exists_int h
    rw [compare_int, Int.compare_eq_gt] at hgreater
    exact nearest_mono hb ha hgreater.le
  · exact (nearest_lt_of_compare ha hb h hgreater).le

/-- A number with the greater double is the greater one. -/
lemma compare_of_nearest_lt (ha : a.Fits) (hb : b.Fits) (hlt : b.nearest < a.nearest) :
    a.compare b = .gt := by
  by_cases h : a.isInt = true ∧ b.isInt = true
  · obtain ⟨m, n, rfl, rfl⟩ := exists_int h
    rw [compare_int, Int.compare_eq_gt]
    by_contra hle
    exact absurd (nearest_mono ha hb (not_lt.mp hle)) (not_le.mpr hlt)
  · rw [compare_eq_nearest ha hb h]
    exact Int.compare_eq_gt.mpr hlt

/-- To be greater is transitive. -/
theorem compare_gt_trans (ha : a.Fits) (hb : b.Fits) (hc : c.Fits) (hab : a.compare b = .gt)
    (hbc : b.compare c = .gt) : a.compare c = .gt := by
  by_cases h : a.isInt = true ∧ b.isInt = true
  · by_cases h' : b.isInt = true ∧ c.isInt = true
    · obtain ⟨l, m, rfl, rfl⟩ := exists_int h
      obtain ⟨m', n, hm, rfl⟩ := exists_int h'
      rw [compare_int, Int.compare_eq_gt] at hab hbc ⊢
      exact hbc.trans hab
    · have hlt := nearest_lt_of_compare hb hc h' hbc
      exact compare_of_nearest_lt ha hc (hlt.trans_le (nearest_le_of_compare ha hb hab))
  · have hlt := nearest_lt_of_compare ha hb h hab
    exact compare_of_nearest_lt ha hc ((nearest_le_of_compare hb hc hbc).trans_lt hlt)

/-- Compared the other way round, the smaller number is the greater one. -/
lemma compare_eq_lt_iff (ha : a.Fits) (hb : b.Fits) : a.compare b = .lt ↔ b.compare a = .gt := by
  by_cases h : a.isInt = true ∧ b.isInt = true
  · obtain ⟨m, n, rfl, rfl⟩ := exists_int h
    rw [compare_int, compare_int, Int.compare_eq_lt, Int.compare_eq_gt]
  · rw [compare_eq_nearest ha hb h, compare_eq_nearest hb ha (fun h' => h h'.symm),
      Int.compare_eq_lt, Int.compare_eq_gt]

/-- A number is neither greater nor smaller than itself. -/
lemma compare_self (ha : a.Fits) : a.compare a = .eq := by
  by_cases h : a.isInt = true ∧ a.isInt = true
  · obtain ⟨m, n, rfl, -⟩ := exists_int h
    rw [compare_int, Int.compare_eq_eq]
  · rw [compare_eq_nearest ha ha h, Int.compare_eq_eq]

end Json.Number

end SchemaCompiler
