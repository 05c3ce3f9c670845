import Mathlib.Data.Set.Basic
import SchemaCompiler.Constraint.Keywords
import SchemaCompiler.Proofs.Numeric.Order

/-!
# What constraints contribute

Which values the constraints on a shape contribute to which bounds is told by two tables:
`Constraint.Counts` for the sizes of texts, arrays and maps, and `Constraint.Limits` for numbers.
The effect of a constraint contributes what the tables say (`Constraint.count_mem_contributions`,
`Constraint.bound_mem_contributions`).

Limits are numbers that 64 bits hold, if the numbers of the constraints are
(`Constraint.Limits.fits`).
-/

namespace SchemaCompiler

namespace Constraint

/-! ### The tables -/

/-- The keywords that bound the size of a shape, from below and from above. -/
inductive Sized : Shape → Keywords.Count → Keywords.Count → Prop
  | string : Sized .string .minLength .maxLength
  | array : Sized .array .minItems .maxItems
  | map : Sized .map .minProperties .maxProperties

/-- The counts that a constraint on a shape gives to a keyword. -/
inductive Counts : Shape → Constraint → Keywords.Count → Nat → Prop
  | notBlank : Counts .string .notBlank .minLength 1
  | notEmpty {shape : Shape} {lower upper : Keywords.Count} (hsized : Sized shape lower upper) :
      Counts shape .notEmpty lower 1
  | sizeMin {shape : Shape} {lower upper : Keywords.Count} {n : Nat} {greatest : Option Nat}
      (hsized : Sized shape lower upper) : Counts shape (.size (some n) greatest) lower n
  | sizeMax {shape : Shape} {lower upper : Keywords.Count} {n : Nat} {least : Option Nat}
      (hsized : Sized shape lower upper) : Counts shape (.size least (some n)) upper n

/-- The numbers that a constraint on a numeric shape gives to a keyword. -/
inductive Limits : Constraint → Keywords.Bound → Json.Number → Prop
  | min {value : Int} : Limits (.min value) .minimum (.int value)
  | max {value : Int} : Limits (.max value) .maximum (.int value)
  | decimalMin {value : Json.Number} : Limits (.decimalMin value true) .minimum value
  | decimalMinExclusive {value : Json.Number} :
      Limits (.decimalMin value false) .exclusiveMinimum value
  | decimalMax {value : Json.Number} : Limits (.decimalMax value true) .maximum value
  | decimalMaxExclusive {value : Json.Number} :
      Limits (.decimalMax value false) .exclusiveMaximum value
  | positive : Limits .positive .exclusiveMinimum (.int 0)
  | positiveOrZero : Limits .positiveOrZero .minimum (.int 0)
  | negative : Limits .negative .exclusiveMaximum (.int 0)
  | negativeOrZero : Limits .negativeOrZero .maximum (.int 0)
  /-- So many digits before the point stay below a power of ten. -/
  | digitsBelow {integer fraction : Nat} {limit : Json.Number} (hinteger : integer ≤ maxDigits)
      (hfraction : fraction ≤ maxDigits) (hlimit : Json.Number.powerOfTen? integer = some limit) :
      Limits (.digits integer fraction) .exclusiveMaximum limit
  /-- They also stay above its opposite. -/
  | digitsAbove {integer fraction : Nat} {limit : Json.Number} (hinteger : integer ≤ maxDigits)
      (hfraction : fraction ≤ maxDigits) (hlimit : Json.Number.powerOfTen? integer = some limit) :
      Limits (.digits integer fraction) .exclusiveMinimum limit.negate

/-- The counts that are given to a keyword. -/
def counted (shape : Shape) (constraints : List Constraint) (keyword : Keywords.Count) : Set Nat :=
  {n | ∃ c ∈ constraints, Counts shape c keyword n}

/-- The numbers that are given to a keyword. -/
def limited (shape : Shape) (constraints : List Constraint) (keyword : Keywords.Bound) :
    Set Json.Number :=
  {n | shape.isNumeric = true ∧ ∃ c ∈ constraints, Limits c keyword n}

/-- The numbers of a constraint are those that 64 bits hold. -/
def Fits : Constraint → Prop
  | min value | max value => Json.Number.minSigned ≤ value ∧ value ≤ Json.Number.maxSigned
  | decimalMin value _ | decimalMax value _ => value.Fits
  | _ => True

/-- What a constraint gives to a numeric keyword fits as well. -/
lemma Limits.fits {c : Constraint} {keyword : Keywords.Bound} {n : Json.Number}
    (h : Limits c keyword n) (hc : c.Fits) : n.Fits := by
  have hsigned : ∀ value : Int, Json.Number.minSigned ≤ value ∧ value ≤ Json.Number.maxSigned →
      (Json.Number.int value).Fits := by
    rintro value ⟨hleast, hgreatest⟩
    unfold Json.Number.maxSigned at hgreatest
    refine ⟨hleast, ?_⟩
    unfold Json.Number.maxUnsigned
    omega
  cases h with
  | min | max => exact hsigned _ hc
  | decimalMin | decimalMinExclusive | decimalMax | decimalMaxExclusive => exact hc
  | positive | positiveOrZero | negative | negativeOrZero => exact hsigned 0 (by decide)
  | digitsBelow _ _ hlimit => exact Json.Number.fits_of_powerOfTen? hlimit
  | digitsAbove _ _ hlimit => exact (Json.Number.fits_of_powerOfTen? hlimit).negate

end Constraint

/-! ### The effects -/

/-- The contributions of an effect, if there are any. -/
def Effect.contributions : Effect → List Contribution
  | contributes contributions => contributions
  | inapplicable | unmapped _ => []

@[simp] lemma Effect.contributions_contributes (contributions : List Contribution) :
    (contributes contributions).contributions = contributions := rfl

@[simp] lemma Effect.contributions_inapplicable : inapplicable.contributions = [] := rfl

@[simp] lemma Effect.contributions_unmapped (name : String) :
    (unmapped name).contributions = [] := rfl

namespace Constraint

variable {shape : Shape} {c : Constraint} {x : Contribution}

/-- What is counted is contributed to the keyword of the shape. -/
@[simp] lemma mem_counting {keyword? : Option Keywords.Count} {value : Nat} :
    x ∈ (counting keyword? value).contributions ↔
      ∃ keyword, keyword? = some keyword ∧ x = .count keyword value := by
  cases keyword? <;> simp [counting]

/-- Conditional contributions are those where the condition holds. -/
@[simp] lemma mem_applied {condition : Bool} {contributions : List Contribution} :
    x ∈ (applied condition contributions).contributions ↔
      condition = true ∧ x ∈ contributions := by
  cases condition <;> simp [applied]

/-- Digits are contributed as two bounds, and as the step of the last place. -/
@[simp] lemma mem_digitsEffect {integer fraction : Nat} :
    x ∈ (digitsEffect integer fraction).contributions ↔
      integer ≤ maxDigits ∧ fraction ≤ maxDigits ∧
      ∃ limit, Json.Number.powerOfTen? integer = some limit ∧
        (x = .bound .exclusiveMaximum limit ∨ x = .bound .exclusiveMinimum limit.negate ∨
          fraction ≠ 0 ∧
            ∃ step, Json.Number.decimalStep? fraction = some step ∧ x = .step step) := by
  unfold digitsEffect
  split
  · next hmany =>
    refine iff_of_false List.not_mem_nil fun h => ?_
    rcases hmany with hinteger | hfraction
    · exact Nat.not_lt_of_le h.1 hinteger
    · exact Nat.not_lt_of_le h.2.1 hfraction
  · next hfew =>
    rw [not_or, Nat.not_lt, Nat.not_lt] at hfew
    rw [and_iff_right hfew.1, and_iff_right hfew.2]
    cases hpower : Json.Number.powerOfTen? integer with
    | none => exact iff_of_false List.not_mem_nil nofun
    | some limit =>
      by_cases hfraction : fraction = 0
      · simp [hfraction]
      · simp [hfraction, eq_comm (a := x)]

/-- A sized shape has a keyword for either side. -/
lemma sized_iff {lower upper : Keywords.Count} :
    Sized shape lower upper ↔ minCount? shape = some lower ∧ maxCount? shape = some upper := by
  constructor
  · rintro (_ | _ | _) <;> exact ⟨rfl, rfl⟩
  · rintro ⟨hlower, hupper⟩
    cases shape <;> cases hlower <;> cases hupper <;> constructor

/-- A shape that is bounded from below is also bounded from above. -/
lemma exists_sized {lower : Keywords.Count} (h : minCount? shape = some lower) :
    ∃ upper, Sized shape lower upper := by
  cases shape <;> cases h
  · exact ⟨_, .string⟩
  · exact ⟨_, .array⟩
  · exact ⟨_, .map⟩

/-- The bounds of a size are contributed to the keywords of a sized shape. -/
@[simp] lemma mem_size {least greatest : Option Nat} :
    x ∈ ((size least greatest).effect shape).contributions ↔
      ∃ lower upper, Sized shape lower upper ∧
        ((∃ n, least = some n ∧ x = .count lower n) ∨
          ∃ n, greatest = some n ∧ x = .count upper n) := by
  simp only [effect, sized_iff]
  cases hlower : minCount? shape with
  | none => simp
  | some lower =>
    cases hupper : maxCount? shape with
    | none => simp
    | some upper =>
      constructor
      · intro h
        refine ⟨lower, upper, ⟨rfl, rfl⟩, ?_⟩
        simpa [eq_comm (a := x)] using h
      · rintro ⟨_, _, ⟨hlower', hupper'⟩, hx⟩
        cases hlower'
        cases hupper'
        simpa [eq_comm (a := x)] using hx

/-- The contributions to a size are those of the table. -/
lemma count_mem_contributions {keyword : Keywords.Count} {n : Nat} :
    .count keyword n ∈ (c.effect shape).contributions ↔ Counts shape c keyword n := by
  constructor
  · intro h
    cases c with
    | notBlank =>
      by_cases hshape : shape = .string
      · subst hshape
        rw [effect, if_pos rfl] at h
        obtain ⟨lower, hlower, hx⟩ := mem_counting.mp h
        cases hlower
        cases hx
        exact .notBlank
      · simp [effect, hshape] at h
    | notEmpty =>
      obtain ⟨lower, hlower, hx⟩ := mem_counting.mp h
      obtain ⟨upper, hsized⟩ := exists_sized hlower
      cases hx
      exact .notEmpty hsized
    | size least greatest =>
      obtain ⟨lower, upper, hsized, ⟨n, rfl, hx⟩ | ⟨n, rfl, hx⟩⟩ := mem_size.mp h
      · cases hx
        exact .sizeMin hsized
      · cases hx
        exact .sizeMax hsized
    | digits integer fraction =>
      by_cases hnumeric : shape.isNumeric = true
      · simp [effect, hnumeric] at h
      · simp [effect, hnumeric] at h
    | _ => simp [effect] at h
  · intro h
    cases h with
    | notBlank =>
      rw [effect, if_pos rfl]
      exact mem_counting.mpr ⟨_, rfl, rfl⟩
    | notEmpty hsized => exact mem_counting.mpr ⟨_, (sized_iff.mp hsized).1, rfl⟩
    | sizeMin hsized => exact mem_size.mpr ⟨_, _, hsized, Or.inl ⟨_, rfl, rfl⟩⟩
    | sizeMax hsized => exact mem_size.mpr ⟨_, _, hsized, Or.inr ⟨_, rfl, rfl⟩⟩

/-- The contributions to a numeric bound are those of the table, where numbers are restricted. -/
lemma bound_mem_contributions {keyword : Keywords.Bound} {n : Json.Number} :
    .bound keyword n ∈ (c.effect shape).contributions ↔
      shape.isNumeric = true ∧ Limits c keyword n := by
  constructor
  · intro h
    cases c with
    | digits integer fraction =>
      by_cases hnumeric : shape.isNumeric = true
      · simp only [effect, if_pos hnumeric, mem_digitsEffect] at h
        obtain ⟨hinteger, hfraction, limit, hlimit, hx | hx | ⟨-, step, -, hx⟩⟩ := h
        · cases hx
          exact ⟨hnumeric, .digitsBelow hinteger hfraction hlimit⟩
        · cases hx
          exact ⟨hnumeric, .digitsAbove hinteger hfraction hlimit⟩
        · cases hx
      · simp [effect, hnumeric] at h
    | decimalMin value inclusive =>
      simp only [effect, mem_applied, List.mem_singleton] at h
      obtain ⟨hnumeric, hx⟩ := h
      cases inclusive <;> cases hx <;> exact ⟨hnumeric, by constructor⟩
    | decimalMax value inclusive =>
      simp only [effect, mem_applied, List.mem_singleton] at h
      obtain ⟨hnumeric, hx⟩ := h
      cases inclusive <;> cases hx <;> exact ⟨hnumeric, by constructor⟩
    | min | max | positive | positiveOrZero | negative | negativeOrZero =>
      simp only [effect, mem_applied, List.mem_singleton] at h
      obtain ⟨hnumeric, hx⟩ := h
      cases hx
      exact ⟨hnumeric, by constructor⟩
    | size least greatest => simp at h
    | notBlank => by_cases hshape : shape = .string <;> simp [effect, hshape] at h
    | _ => simp [effect] at h
  · rintro ⟨hnumeric, h⟩
    cases h with
    | digitsBelow hinteger hfraction hlimit =>
      simp only [effect, if_pos hnumeric, mem_digitsEffect]
      exact ⟨hinteger, hfraction, _, hlimit, Or.inl rfl⟩
    | digitsAbove hinteger hfraction hlimit =>
      simp only [effect, if_pos hnumeric, mem_digitsEffect]
      exact ⟨hinteger, hfraction, _, hlimit, Or.inr (Or.inl rfl)⟩
    | _ => simp [effect, hnumeric]

end Constraint

/-! ### Contributions to a keyword -/

namespace Contribution

/-- The value that is contributed to a count. -/
def count? (keyword : Keywords.Count) : Contribution → Option Nat
  | count k value => if k = keyword then some value else none
  | _ => none

/-- The value that is contributed to a numeric bound. -/
def bound? (keyword : Keywords.Bound) : Contribution → Option Json.Number
  | bound k value => if k = keyword then some value else none
  | _ => none

/-- A value is contributed to a count exactly by a contribution of a count. -/
lemma count?_eq_some_iff {x : Contribution} {keyword : Keywords.Count} {n : Nat} :
    x.count? keyword = some n ↔ x = .count keyword n := by
  cases x <;> simp [count?]

/-- A value is contributed to a numeric bound exactly by a contribution of a bound. -/
lemma bound?_eq_some_iff {x : Contribution} {keyword : Keywords.Bound} {n : Json.Number} :
    x.bound? keyword = some n ↔ x = .bound keyword n := by
  cases x <;> simp [bound?]

end Contribution

end SchemaCompiler
