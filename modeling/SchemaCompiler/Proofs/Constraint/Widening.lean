import Mathlib.Tactic.NormNum
import SchemaCompiler.Proofs.Constraint.Bounds
import SchemaCompiler.Proofs.Numeric.Value

/-!
# Which bounds are widened

The kept bound of a keyword against the bounds that are declared for it, by what they admit
(`Keywords.Bound.Admits`).  A value that the kept bound admits is admitted by every declared bound,
except for one that the comparison cannot tell from the kept one (`Mapping.bounds_by_value`).  Only
a bound beyond `2 ^ 53` can be widened in this way, and only if integers and doubles meet.
-/

namespace SchemaCompiler

/-- The values that a bound admits. -/
def Keywords.Bound.Admits (keyword : Keywords.Bound) (limit x : ℚ) : Prop :=
  match keyword with
  | minimum => limit ≤ x
  | exclusiveMinimum => limit < x
  | maximum => x ≤ limit
  | exclusiveMaximum => x < limit

namespace Keywords.Bound

variable {keyword : Keywords.Bound} {limit limit' x : ℚ}

/-- A greater lower bound and a smaller upper bound admit less. -/
lemma Admits.of_tighter (h : keyword.Admits limit x)
    (htighter : if keyword.isLower then limit' ≤ limit else limit ≤ limit') :
    keyword.Admits limit' x := by
  cases keyword with
  | minimum =>
    have hle : limit' ≤ limit := htighter
    exact hle.trans h
  | exclusiveMinimum =>
    have hle : limit' ≤ limit := htighter
    exact hle.trans_lt h
  | maximum =>
    have hle : limit ≤ limit' := htighter
    exact le_trans h hle
  | exclusiveMaximum =>
    have hle : limit ≤ limit' := htighter
    exact lt_of_lt_of_le h hle

end Keywords.Bound

namespace Json.Number

variable {a b : Number}

/-- One of two numbers that cannot be told apart is an integer beyond `2 ^ 53`. -/
lemma Indistinct.exists_int (h : a.Indistinct b) :
    ∃ n : ℤ, (a = int n ∨ b = int n) ∧ 2 ^ 53 < n.natAbs := by
  cases a with
  | int n =>
    cases b with
    | int m => exact absurd rfl h.mixed
    | float y => exact ⟨n, Or.inl rfl, h.natAbs_gt⟩
  | float x =>
    cases b with
    | int n => exact ⟨n, Or.inr rfl, h.symm.natAbs_gt⟩
    | float y => exact absurd rfl h.mixed

end Json.Number

namespace Mapping

variable {shape : Shape} {constraints : List Constraint} {keyword : Keywords.Bound}
  {kept declared : Json.Number}

/-- A declared bound is no tighter than the kept one, or the comparison takes them for equal. -/
lemma not_tighter_or_indistinct (hfits : ∀ c ∈ constraints, c.Fits)
    (hkept : (ofConstraints shape constraints).keywords.bound keyword = some kept)
    (hdeclared : declared ∈ Constraint.limited shape constraints keyword) :
    (if keyword.isLower then declared.value ≤ kept.value else kept.value ≤ declared.value) ∨
      declared.Indistinct kept := by
  have hdeclaredFits : declared.Fits := by
    obtain ⟨-, c, hc, hlimits⟩ := hdeclared
    exact hlimits.fits (hfits c hc)
  obtain ⟨kept', hkept', hkeptFits, hbeaten⟩ := exists_kept hfits hdeclared
  obtain rfl : kept = kept' := Option.some.inj (hkept.symm.trans hkept')
  by_cases hindistinct : declared.Indistinct kept
  · exact Or.inr hindistinct
  · refine Or.inl ?_
    split
    · next hlower =>
      rw [if_pos hlower, Ne, Json.Number.compare_eq_gt_iff_value hdeclaredFits hkeptFits] at hbeaten
      exact not_lt.mp fun hlt => hbeaten ⟨hlt, hindistinct⟩
    · next hupper =>
      rw [if_neg hupper, Ne, Json.Number.compare_eq_lt_iff_value hdeclaredFits hkeptFits] at hbeaten
      exact not_lt.mp fun hlt => hbeaten ⟨hlt, hindistinct⟩

/-- Numbers are compared by their values, except for an integer beyond `2 ^ 53` and a double that is
nearest to it without being equal to it, which are taken for equal.  Accordingly a value that the
kept bound of a keyword admits is admitted by every bound that is declared for the keyword, except
for one that cannot be told from the kept one. -/
theorem bounds_by_value {a b : Json.Number} (ha : a.Fits) (hb : b.Fits) (shape : Shape)
    {constraints : List Constraint} (hfits : ∀ c ∈ constraints, c.Fits) :
    (a.compare b = .lt ↔ a.value < b.value ∧ ¬a.Indistinct b) ∧
      (a.compare b = .eq ↔ a.value = b.value ∨ a.Indistinct b) ∧
      (a.compare b = .gt ↔ b.value < a.value ∧ ¬a.Indistinct b) ∧
      (a.Indistinct b → ∃ n : ℤ, (a = .int n ∨ b = .int n) ∧ 2 ^ 53 < n.natAbs) ∧
      ∀ keyword kept, (ofConstraints shape constraints).keywords.bound keyword = some kept →
        ∀ declared ∈ Constraint.limited shape constraints keyword,
          (∀ x, keyword.Admits kept.value x → keyword.Admits declared.value x) ∨
            declared.Indistinct kept := by
  refine ⟨Json.Number.compare_eq_lt_iff_value ha hb, Json.Number.compare_eq_eq_iff_value ha hb,
    Json.Number.compare_eq_gt_iff_value ha hb, Json.Number.Indistinct.exists_int, ?_⟩
  intro keyword kept hkept declared hdeclared
  refine (not_tighter_or_indistinct hfits hkept hdeclared).imp_left fun htighter x hx => ?_
  exact hx.of_tighter htighter

/-- The double `2 ^ 53` as a lower bound, and the next integer. -/
def widened : List Constraint :=
  [.decimalMin (.float limitOfDoubles) true, .min 9007199254740993]

/-- The double `2 ^ 53` is taken for equal to the integer that it is, and to the next integer,
although the two integers differ.  So it is kept as a lower bound beside the greater integer, and
admits its own value, which the integer does not. -/
theorem bounds_widened :
    (Json.Number.int 9007199254740992).compare (.float limitOfDoubles) = .eq ∧
      (Json.Number.float limitOfDoubles).compare (.int 9007199254740993) = .eq ∧
      (Json.Number.int 9007199254740992).compare (.int 9007199254740993) = .lt ∧
      (Json.Number.float limitOfDoubles).Indistinct (.int 9007199254740993) ∧
      (∀ c ∈ widened, c.Fits) ∧
      (ofConstraints .number widened).keywords.bound .minimum = some (.float limitOfDoubles) ∧
      (∀ declared ∈ Constraint.limited .number widened .minimum,
        (∀ x, Keywords.Bound.minimum.Admits (Json.Number.float limitOfDoubles).value x →
          Keywords.Bound.minimum.Admits declared.value x) ∨
          declared.Indistinct (.float limitOfDoubles)) ∧
      .int 9007199254740993 ∈ Constraint.limited .number widened .minimum ∧
      (Json.Number.float limitOfDoubles).value = 9007199254740992 ∧
      ¬Keywords.Bound.minimum.Admits (Json.Number.int 9007199254740993).value 9007199254740992 := by
  have hdouble : (Json.Number.float limitOfDoubles).Fits := trivial
  have hinteger : (Json.Number.int 9007199254740993).Fits := by
    unfold Json.Number.Fits Json.Number.minSigned Json.Number.maxUnsigned
    omega
  have hfits : ∀ c ∈ widened, c.Fits := by
    simp only [widened, List.forall_mem_cons, Constraint.Fits, Json.Number.Fits,
      Json.Number.minSigned, Json.Number.maxSigned]
    simp
  have hequal : (Json.Number.float limitOfDoubles).compare (.int 9007199254740993) = .eq := by
    decide +kernel
  have hkept : (ofConstraints .number widened).keywords.bound .minimum =
      some (.float limitOfDoubles) := by decide +kernel
  have hvalue :
      (Json.Number.float limitOfDoubles).value = (Json.Number.int 9007199254740992).value :=
    Json.Number.value_eq_iff.mpr (by decide +kernel)
  have hcast : (Json.Number.int 9007199254740992).value = 9007199254740992 := by
    norm_num [Json.Number.value]
  have hless : (9007199254740992 : ℚ) < (Json.Number.int 9007199254740993).value := by
    norm_num [Json.Number.value]
  obtain ⟨-, heq, -, -, hbounds⟩ := bounds_by_value hdouble hinteger .number hfits
  have hindistinct := (heq.mp hequal).resolve_left fun hsame => by
    rw [hvalue, hcast] at hsame
    exact hless.ne hsame
  refine ⟨by decide +kernel, hequal, by decide +kernel, hindistinct, hfits, hkept,
    hbounds .minimum _ hkept, ⟨rfl, .min 9007199254740993, ?_, .min⟩, hvalue.trans hcast,
    not_le.mpr hless⟩
  simp [widened]

end Mapping

end SchemaCompiler
