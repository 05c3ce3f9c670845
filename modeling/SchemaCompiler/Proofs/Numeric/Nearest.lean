import Mathlib.Tactic.Ring
import SchemaCompiler.Proofs.Numeric.Order

/-!
# The nearest double

A quotient is rounded to a double exactly if it lies in the rounding interval of the double
(`Binary64.roundRatio_eq_some_iff`).  The exponent of the nearest double is told by two inequalities
(`Binary64.IsExponent`) that no other exponent satisfies, and the significand is an integer nearest
to the quotient in units of the last place (`roundQuotient_eq_iff`).

It follows that doubles are rounded to themselves, that a quotient may be expanded by a common
factor, and that quotients within the range of the doubles have a nearest one.
-/

namespace SchemaCompiler

/-! ### Nearest integers -/

section Quotients

variable {num den : Nat}

/-- The rounded quotient is the integer that is at most half away, and less if it is odd. -/
lemma roundQuotient_eq_iff {q : Nat} (hden : 0 < den) :
    roundQuotient num den = q ↔
      2 * (q * den) ≤ 2 * num + den ∧ 2 * num ≤ 2 * (q * den) + den ∧
        (q % 2 = 1 → 2 * (q * den) < 2 * num + den ∧ 2 * num < 2 * (q * den) + den) := by
  have hnum : den * (num / den) + num % den = num := Nat.div_add_mod num den
  have hmod : num % den < den := Nat.mod_lt num hden
  rw [Nat.mul_comm] at hnum
  have hnext : (num / den + 1) * den = num / den * den + den := Nat.succ_mul _ _
  constructor
  · intro h
    unfold roundQuotient at h
    dsimp only at h
    split at h
    · subst h
      omega
    · split at h
      · subst h
        omega
      · split at h
        · subst h
          omega
        · subst h
          omega
  · rintro ⟨hlower, hupper, hodd⟩
    -- The integer is the floor or the next one, because no other is within half of the quotient.
    have hfloor : num / den ≤ q := by
      by_contra hlt
      have hle : (q + 1) * den ≤ num / den * den := Nat.mul_le_mul_right den (by omega)
      rw [Nat.succ_mul] at hle
      omega
    have hnear : q ≤ num / den + 1 := by
      by_contra hlt
      have hle : (num / den + 1 + 1) * den ≤ q * den := Nat.mul_le_mul_right den (by omega)
      rw [Nat.succ_mul] at hle
      omega
    unfold roundQuotient
    dsimp only
    rcases Nat.eq_or_lt_of_le hfloor with heq | hlt
    · rw [← heq] at hlower hupper hodd ⊢
      split
      · rfl
      · split
        · omega
        · split
          · rfl
          · omega
    · obtain rfl : q = num / den + 1 := by omega
      split
      · omega
      · split
        · rfl
        · split
          · omega
          · rfl

/-- A quotient up to an integer is not rounded beyond it. -/
lemma roundQuotient_le_of_le {q : Nat} (hden : 0 < den) (h : num ≤ q * den) :
    roundQuotient num den ≤ q := by
  have hself : roundQuotient (q * den) den = q := (roundQuotient_eq_iff hden).mpr (by omega)
  exact (roundQuotient_mono h).trans_eq hself

end Quotients

/-- A number of units, as a fraction, lies in an interval. -/
def Binary64.RoundingInterval.Holds (interval : Binary64.RoundingInterval) (num den : Nat) : Prop :=
  if interval.closed then interval.lower * den ≤ 4 * num ∧ 4 * num ≤ interval.upper * den
  else interval.lower * den < 4 * num ∧ 4 * num < interval.upper * den

namespace Binary64

variable {x : Binary64} {negative : Bool} {num den total exponent : Nat}

/-! ### The exponent -/

/-- So many units, as a fraction, have this exponent: their 53 leading bits are whole, and there are
no fewer unless the exponent is least. -/
structure IsExponent (total den exponent : Nat) : Prop where
  lt : total < 2 ^ 53 * (den * 2 ^ exponent)
  normal : exponent = 0 ∨ 2 ^ 52 * (den * 2 ^ exponent) ≤ total

/-- A smaller exponent leaves fewer bits. -/
lemma IsExponent.le {other : Nat} (h : IsExponent total den exponent)
    (hnormal : other = 0 ∨ 2 ^ 52 * (den * 2 ^ other) ≤ total) : other ≤ exponent := by
  rcases hnormal with rfl | hnormal
  · exact Nat.zero_le _
  · by_contra hlt
    have hpower : den * 2 ^ (exponent + 1) ≤ den * 2 ^ other :=
      Nat.mul_le_mul_left den (Nat.pow_le_pow_right Nat.zero_lt_two (by omega))
    rw [Nat.pow_succ, ← Nat.mul_assoc] at hpower
    have hbits := h.lt
    omega

/-- The exponent is determined. -/
lemma IsExponent.unique {other : Nat} (h : IsExponent total den exponent)
    (h' : IsExponent total den other) : exponent = other :=
  Nat.le_antisymm (h'.le h.normal) (h.le h'.normal)

/-- The exponent is that of the floor. -/
lemma isExponent_exponentOf (hden : 0 < den) : IsExponent total den (exponentOf (total / den)) := by
  have hnum : den * (total / den) + total % den = total := Nat.div_add_mod total den
  have hmod : total % den < den := Nat.mod_lt total hden
  generalize total / den = floor at hnum ⊢
  constructor
  · have hlog : floor < 2 ^ (Nat.log2 floor + 1) := Nat.lt_log2_self
    have hbits : Nat.log2 floor + 1 ≤ 53 + exponentOf floor := by
      unfold exponentOf
      omega
    have hfloor : floor + 1 ≤ 2 ^ 53 * 2 ^ exponentOf floor := by
      rw [← Nat.pow_add]
      exact hlog.trans_le (Nat.pow_le_pow_right Nat.zero_lt_two hbits)
    calc total < den * (floor + 1) := by
          rw [Nat.mul_succ]
          omega
      _ ≤ den * (2 ^ 53 * 2 ^ exponentOf floor) := Nat.mul_le_mul_left den hfloor
      _ = 2 ^ 53 * (den * 2 ^ exponentOf floor) := Nat.mul_left_comm _ _ _
  · rcases Nat.eq_zero_or_pos (exponentOf floor) with hzero | hpos
    · exact Or.inl hzero
    · have hlog : Nat.log2 floor = 52 + exponentOf floor := by
        unfold exponentOf at hpos ⊢
        omega
      have hne : floor ≠ 0 := by
        rintro rfl
        simp [exponentOf] at hpos
      have hfloor : 2 ^ 52 * 2 ^ exponentOf floor ≤ floor := by
        rw [← Nat.pow_add, ← hlog]
        exact Nat.log2_self_le hne
      refine Or.inr ?_
      calc 2 ^ 52 * (den * 2 ^ exponentOf floor) = den * (2 ^ 52 * 2 ^ exponentOf floor) :=
            Nat.mul_left_comm _ _ _
        _ ≤ den * floor := Nat.mul_le_mul_left den hfloor
        _ ≤ total := by omega

/-! ### Rounding to the nearest double -/

/-- Rounding by the parts that the exponent determines. -/
lemma roundRatio_eq (hden : 0 < den) (h : IsExponent (num * unit) den exponent) :
    roundRatio negative num den =
      if roundQuotient (num * unit) (den * 2 ^ exponent) < 2 ^ 53 then
        ofParts? negative (roundQuotient (num * unit) (den * 2 ^ exponent)) exponent
      else ofParts? negative (2 ^ 52) (exponent + 1) := by
  obtain rfl := h.unique (isExponent_exponentOf hden)
  rfl

/-- A double has its parts. -/
lemma ofParts?_self (x : Binary64) : ofParts? x.negative x.significand x.exponent = some x :=
  dif_pos ⟨x.significand_lt, x.exponent_le, x.normal⟩

/-- Parts are those of a double exactly if it has them. -/
lemma ofParts?_eq_some_iff {significand : Nat} :
    ofParts? negative significand exponent = some x ↔
      x.negative = negative ∧ x.significand = significand ∧ x.exponent = exponent := by
  refine ⟨ofParts?_eq_some, ?_⟩
  rintro ⟨rfl, rfl, rfl⟩
  exact ofParts?_self x

/-- The significand does not exceed the first number with 54 bits. -/
lemma roundQuotient_le_of_isExponent (hden : 0 < den) (h : IsExponent total den exponent) :
    roundQuotient total (den * 2 ^ exponent) ≤ 2 ^ 53 :=
  roundQuotient_le_of_le (Nat.mul_pos hden (Nat.two_pow_pos _)) h.lt.le

/-- An interval by the place of its numbers: half a unit of the last place to either side, and a
quarter below a power of two, where the numbers lie twice as dense. -/
lemma holds_roundingInterval_iff (hx : 0 < x.significand) :
    x.roundingInterval.Holds total den ↔
      let place := den * 2 ^ x.exponent
      let below := if x.significand = 2 ^ 52 ∧ x.exponent ≠ 0 then place else 2 * place
      if x.significand % 2 = 0 then
        4 * (x.significand * place) ≤ 4 * total + below ∧
          4 * total ≤ 4 * (x.significand * place) + 2 * place
      else
        4 * (x.significand * place) < 4 * total + below ∧
          4 * total < 4 * (x.significand * place) + 2 * place := by
  have hpower : Nat.pow 2 x.exponent = 2 ^ x.exponent := rfl
  have hmagnitude : x.magnitude * den = x.significand * (den * 2 ^ x.exponent) := by
    rw [magnitude, hpower]
    ring
  have hstep : 2 ^ x.exponent ≤ x.magnitude := Nat.le_mul_of_pos_left _ hx
  have hplace : 2 ^ x.exponent * den = den * 2 ^ x.exponent := Nat.mul_comm _ _
  have hleast : 0x10000000000000 = 2 ^ 52 := rfl
  -- Nothing is cut off at the lower end, because the gap is at most the number itself.
  have hlower : ∀ gap ≤ 2 * 2 ^ x.exponent, (4 * x.magnitude - gap) * den + gap * den =
      4 * (x.significand * (den * 2 ^ x.exponent)) := by
    intro gap hgap
    have hsum : 4 * x.magnitude - gap + gap = 4 * x.magnitude := Nat.sub_add_cancel (by omega)
    rw [← Nat.add_mul, hsum, Nat.mul_assoc, hmagnitude]
  have hupper : (4 * x.magnitude + 2 * 2 ^ x.exponent) * den =
      4 * (x.significand * (den * 2 ^ x.exponent)) + 2 * (den * 2 ^ x.exponent) := by
    rw [Nat.add_mul, Nat.mul_assoc, Nat.mul_assoc, hmagnitude, hplace]
  unfold RoundingInterval.Holds roundingInterval
  simp only [hpower, hupper, beq_iff_eq]
  rw [hleast]
  by_cases hdense : x.significand = 2 ^ 52 ∧ x.exponent ≠ 0
  · have hend := hlower (2 ^ x.exponent) (by omega)
    rw [hplace] at hend
    rw [if_pos hdense, if_pos hdense]
    split <;> omega
  · have hend := hlower (2 * 2 ^ x.exponent) le_rfl
    rw [Nat.mul_assoc, hplace] at hend
    rw [if_neg hdense, if_neg hdense]
    split <;> omega

/-- The double that a quotient is rounded to has the quotient in its interval. -/
lemma holds_of_roundRatio (hden : 0 < den) (hx : 0 < x.significand)
    (h : roundRatio negative num den = some x) : x.roundingInterval.Holds (num * unit) den := by
  obtain ⟨exponent, hexponent⟩ : ∃ exponent, IsExponent (num * unit) den exponent :=
    ⟨_, isExponent_exponentOf hden⟩
  rw [roundRatio_eq hden hexponent] at h
  have hplace : 0 < den * 2 ^ exponent := Nat.mul_pos hden (Nat.two_pow_pos _)
  have hle := roundQuotient_le_of_isExponent hden hexponent
  rw [holds_roundingInterval_iff hx]
  dsimp only
  generalize num * unit = total at *
  generalize hq : roundQuotient total (den * 2 ^ exponent) = q at h hle
  obtain ⟨hlower, hupper, hodd⟩ := (roundQuotient_eq_iff hplace).mp hq
  have hlt := hexponent.lt
  have heven : 2 ^ 52 % 2 = 0 := by decide
  by_cases hcarry : q < 2 ^ 53
  · rw [if_pos hcarry] at h
    obtain ⟨-, hsignificand, hx⟩ := ofParts?_eq_some h
    rw [hsignificand, hx]
    by_cases hdense : q = 2 ^ 52 ∧ exponent ≠ 0
    · have hnormal := hexponent.normal.resolve_left hdense.2
      rw [if_pos hdense]
      obtain ⟨rfl, -⟩ := hdense
      rw [if_pos heven]
      omega
    · rw [if_neg hdense]
      split <;> omega
  · rw [if_neg hcarry] at h
    obtain ⟨-, hsignificand, hx⟩ := ofParts?_eq_some h
    obtain rfl : q = 2 ^ 53 := by omega
    have hnext : den * 2 ^ x.exponent = 2 * (den * 2 ^ exponent) := by
      rw [hx, Nat.pow_succ]
      ring
    have hdense : x.significand = 2 ^ 52 ∧ x.exponent ≠ 0 := ⟨hsignificand, by omega⟩
    rw [if_pos hdense, hsignificand, hnext, if_pos heven]
    omega

/-- A quotient in the interval of a double is rounded to the double. -/
lemma roundRatio_of_holds (hden : 0 < den) (hx : 0 < x.significand)
    (h : x.roundingInterval.Holds (num * unit) den) :
    roundRatio x.negative num den = some x := by
  have hplace : 0 < den * 2 ^ x.exponent := Nat.mul_pos hden (Nat.two_pow_pos _)
  rw [holds_roundingInterval_iff hx] at h
  dsimp only at h
  by_cases hbelow : (x.significand = 2 ^ 52 ∧ x.exponent ≠ 0) ∧
      num * unit < x.significand * (den * 2 ^ x.exponent)
  · -- Just below a power of two the exponent is one less, and the significand is carried.
    obtain ⟨hdense, hlt⟩ := hbelow
    obtain ⟨exponent, hexponent⟩ := Nat.exists_eq_succ_of_ne_zero hdense.2
    have hnext : den * 2 ^ x.exponent = 2 * (den * 2 ^ exponent) := by
      rw [hexponent, Nat.pow_succ]
      ring
    have heven : 2 ^ 52 % 2 = 0 := by decide
    rw [if_pos hdense, hdense.1, if_pos heven, hnext] at h
    rw [hdense.1, hnext] at hlt
    have hplace' : 0 < den * 2 ^ exponent := by omega
    have hexponent' : IsExponent (num * unit) den exponent := ⟨by omega, Or.inr (by omega)⟩
    have hcarry : roundQuotient (num * unit) (den * 2 ^ exponent) = 2 ^ 53 :=
      (roundQuotient_eq_iff hplace').mpr ⟨by omega, by omega, fun hodd => absurd hodd (by decide)⟩
    rw [roundRatio_eq hden hexponent', hcarry, if_neg (lt_irrefl _), ofParts?_eq_some_iff]
    exact ⟨rfl, hdense.1, hexponent⟩
  · have hsignificand : x.significand < 2 ^ 53 := x.significand_lt
    have hgreatest : x.significand * (den * 2 ^ x.exponent) ≤
        (2 ^ 53 - 1) * (den * 2 ^ x.exponent) := Nat.mul_le_mul_right _ (by omega)
    have hquotient : roundQuotient (num * unit) (den * 2 ^ x.exponent) = x.significand := by
      rw [roundQuotient_eq_iff hplace]
      split at h <;> split at h <;> omega
    have hexponent : IsExponent (num * unit) den x.exponent := by
      refine ⟨by split at h <;> omega, ?_⟩
      rcases Nat.eq_zero_or_pos x.exponent with hzero | hpos
      · exact Or.inl hzero
      · refine Or.inr ?_
        have hnormal : 2 ^ 52 ≤ x.significand := x.normal.resolve_left (by omega)
        by_cases hleast : x.significand = 2 ^ 52
        · rw [hleast] at hbelow
          omega
        · have hgreater : (2 ^ 52 + 1) * (den * 2 ^ x.exponent) ≤
              x.significand * (den * 2 ^ x.exponent) := Nat.mul_le_mul_right _ (by omega)
          split at h <;> split at h <;> omega
    rw [roundRatio_eq hden hexponent, hquotient, if_pos hsignificand]
    exact ofParts?_self x

/-- A quotient is rounded to a double other than zero exactly if it lies in its interval. -/
theorem roundRatio_eq_some_iff (hden : 0 < den) (hx : 0 < x.significand) :
    roundRatio negative num den = some x ↔
      x.negative = negative ∧ x.roundingInterval.Holds (num * unit) den := by
  constructor
  · intro h
    exact ⟨negative_of_roundRatio h, holds_of_roundRatio hden hx h⟩
  · rintro ⟨rfl, h⟩
    exact roundRatio_of_holds hden hx h

/-! ### Doubles are rounded to themselves -/

/-- A double lies in its interval. -/
lemma holds_magnitude (hx : 0 < x.significand) (hden : 0 < den) :
    x.roundingInterval.Holds (x.magnitude * den) den := by
  have hplace : 0 < den * 2 ^ x.exponent := Nat.mul_pos hden (Nat.two_pow_pos _)
  have hmagnitude : x.magnitude * den = x.significand * (den * 2 ^ x.exponent) := by
    rw [magnitude, Nat.mul_assoc, Nat.mul_comm _ den]
    rfl
  rw [holds_roundingInterval_iff hx, hmagnitude]
  dsimp only
  split <;> split <;> omega

/-- A quotient with the value of a double is rounded to it. -/
lemma roundRatio_self (hx : 0 < x.significand) (hden : 0 < den)
    (h : num * unit = x.magnitude * den) : roundRatio x.negative num den = some x := by
  refine roundRatio_of_holds hden hx ?_
  rw [h]
  exact holds_magnitude hx hden

/-- A number of units is not rounded if its last places are free. -/
lemma rounded_of_dvd (h : 2 ^ exponentOf total ∣ total) : rounded total = total := by
  obtain ⟨significand, hsignificand⟩ := h
  have hquotient : significandOf total = significand := by
    unfold significandOf
    rw [roundQuotient_eq_iff (Nat.two_pow_pos _), Nat.mul_comm significand, ← hsignificand]
    have hplace : 0 < 2 ^ exponentOf total := Nat.two_pow_pos _
    omega
  rw [rounded, hquotient, Nat.mul_comm, ← hsignificand]

/-- The exponent of a double is told by its number of units. -/
lemma exponent_eq (x : Binary64) : x.exponent = exponentOf x.magnitude := by
  have hmagnitude : x.magnitude = x.significand * (1 * 2 ^ x.exponent) := by
    rw [magnitude, Nat.one_mul]
    rfl
  have hsignificand : x.significand < 2 ^ 53 := x.significand_lt
  have hexponent : IsExponent x.magnitude 1 x.exponent := by
    rw [hmagnitude]
    refine ⟨Nat.mul_lt_mul_of_pos_right hsignificand (by simp), ?_⟩
    exact x.normal.imp_right fun hnormal => Nat.mul_le_mul_right _ hnormal
  have hfloor : IsExponent x.magnitude 1 (exponentOf (x.magnitude / 1)) :=
    isExponent_exponentOf Nat.one_pos
  rw [Nat.div_one] at hfloor
  exact hexponent.unique hfloor

/-- A double is its own rounding. -/
lemma rounded_magnitude (x : Binary64) : rounded x.magnitude = x.magnitude := by
  refine rounded_of_dvd ?_
  rw [← exponent_eq]
  exact Nat.dvd_mul_left _ _

/-- Doubles of one size have the same parts. -/
lemma parts_eq_of_magnitude_eq {y : Binary64} (h : x.magnitude = y.magnitude) :
    x.significand = y.significand ∧ x.exponent = y.exponent := by
  have hexponent : x.exponent = y.exponent := by rw [exponent_eq, exponent_eq y, h]
  have hplace : 0 < Nat.pow 2 y.exponent := Nat.two_pow_pos _
  refine ⟨?_, hexponent⟩
  rw [magnitude, magnitude, hexponent] at h
  exact Nat.eq_of_mul_eq_mul_right hplace h

/-- Integers up to `2 ^ 53` are not rounded at any place. -/
lemma rounded_mul_two_pow {n : Nat} (hn : n ≤ 2 ^ 53) (places : Nat) :
    rounded (n * 2 ^ places) = n * 2 ^ places := by
  have hplaces : 0 < 2 ^ places := Nat.two_pow_pos _
  refine rounded_of_dvd ?_
  have hexponent : IsExponent (n * 2 ^ places) 1 (exponentOf (n * 2 ^ places / 1)) :=
    isExponent_exponentOf Nat.one_pos
  rw [Nat.div_one] at hexponent
  generalize exponentOf (n * 2 ^ places) = exponent at hexponent ⊢
  by_cases hle : exponent ≤ places
  · exact (Nat.pow_dvd_pow 2 hle).mul_left n
  · -- Only `2 ^ 53` itself has one place more.
    have hnormal := hexponent.normal.resolve_left (by omega)
    have hpower : 2 ^ (places + 1) ≤ 2 ^ exponent :=
      Nat.pow_le_pow_right Nat.zero_lt_two (by omega)
    rw [Nat.pow_succ] at hpower
    have hlimit : 2 ^ 53 * 2 ^ places ≤ n * 2 ^ places := by omega
    obtain rfl : n = 2 ^ 53 := le_antisymm hn (Nat.le_of_mul_le_mul_right hlimit hplaces)
    have hle' : exponent ≤ 53 + places := by
      by_contra hlt
      have hpower' : 2 ^ (53 + places) ≤ 2 ^ exponent :=
        Nat.pow_le_pow_right Nat.zero_lt_two (by omega)
      rw [Nat.pow_add] at hpower'
      omega
    rw [← Nat.pow_add]
    exact Nat.pow_dvd_pow 2 hle'

/-- Integers up to `2 ^ 53` are not rounded. -/
lemma rounded_mul_unit {n : Nat} (hn : n ≤ 2 ^ 53) : rounded (n * unit) = n * unit := by
  obtain ⟨places, -, hunit⟩ := exists_unit_eq
  rw [hunit]
  exact rounded_mul_two_pow hn places

/-! ### Quotients within the range -/

/-- A quotient up to the greatest double has a nearest double. -/
theorem exists_roundRatio (negative : Bool) (hden : 0 < den)
    (h : num * unit ≤ (2 ^ 53 - 1) * (den * 2 ^ 2045)) :
    ∃ x, roundRatio negative num den = some x := by
  obtain ⟨exponent, hexponent⟩ : ∃ exponent, IsExponent (num * unit) den exponent :=
    ⟨_, isExponent_exponentOf hden⟩
  have hplace : 0 < den * 2 ^ exponent := Nat.mul_pos hden (Nat.two_pow_pos _)
  rw [roundRatio_eq hden hexponent]
  generalize hgreatest : 2045 = greatest at h
  generalize num * unit = total at h hexponent ⊢
  -- The power is a variable here, because it is too large to be written out.
  have hle : exponent ≤ greatest := by
    by_contra hlt
    have hnormal := hexponent.normal.resolve_left (by omega)
    have hpower : den * 2 ^ greatest * 2 ≤ den * 2 ^ exponent := by
      rw [Nat.mul_assoc, ← Nat.pow_succ]
      exact Nat.mul_le_mul_left den (Nat.pow_le_pow_right Nat.zero_lt_two (by omega))
    omega
  by_cases hcarry : roundQuotient total (den * 2 ^ exponent) < 2 ^ 53
  · rw [if_pos hcarry]
    refine exists_ofParts? hcarry (by omega) ?_
    refine hexponent.normal.imp_right fun hnormal => ?_
    exact ((Nat.le_div_iff_mul_le hplace).mpr hnormal).trans div_le_roundQuotient
  · rw [if_neg hcarry]
    refine exists_ofParts? (by decide) ?_ (Or.inr le_rfl)
    by_contra hlt
    obtain rfl : exponent = greatest := by omega
    have hquotient : roundQuotient total (den * 2 ^ exponent) ≤ 2 ^ 53 - 1 :=
      roundQuotient_le_of_le hplace h
    omega

/-- The greatest exponent is 971 above that of the unit. -/
lemma two_pow_mul_unit_le : 2 ^ 971 * unit ≤ 2 ^ 2045 := by
  obtain ⟨places, hplaces, hunit⟩ := exists_unit_eq
  have hexponent : 971 + places ≤ 2045 := by omega
  rw [hunit, ← Nat.pow_add]
  gcongr
  decide

/-- There are no more units than the greatest exponent tells. -/
lemma unit_le : unit ≤ 2 ^ 2045 := by
  obtain ⟨places, hplaces, hunit⟩ := exists_unit_eq
  have hexponent : places ≤ 2045 := by omega
  rw [hunit]
  gcongr
  decide

/-- A power of ten up to the greatest one within the range has a nearest double. -/
theorem exists_powerOfTen? {n : Nat} (hn : n ≤ Json.Number.maxPower) :
    ∃ x, powerOfTen? n = some x := by
  have hten : 0 < 10 := by decide
  have hgreatest : 10 ^ Json.Number.maxPower ≤ (2 ^ 53 - 1) * 2 ^ 971 := by decide +kernel
  have hpower : 10 ^ n ≤ (2 ^ 53 - 1) * 2 ^ 971 :=
    (Nat.pow_le_pow_right hten hn).trans hgreatest
  refine exists_roundRatio false Nat.one_pos ?_
  calc 10 ^ n * unit ≤ (2 ^ 53 - 1) * 2 ^ 971 * unit := Nat.mul_le_mul_right _ hpower
    _ = (2 ^ 53 - 1) * (2 ^ 971 * unit) := Nat.mul_assoc _ _ _
    _ ≤ (2 ^ 53 - 1) * (1 * 2 ^ 2045) := by
        rw [Nat.one_mul]
        exact Nat.mul_le_mul_left _ two_pow_mul_unit_le

end Binary64

end SchemaCompiler
