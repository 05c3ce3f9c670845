import SchemaCompiler.Constraint.Reader
import SchemaCompiler.Proofs.Outcome

/-!
# Which entries are constraints

The entries that a constraint is read from, told from the constraint: its kind alone, if it can
stand alone (`Constraint.StandsAlone`), or its kind with parameters that hold what it says
(`Constraint.HeldBy`).  Either way the entry is written under the kind of the constraint
(`Constraint.ofEntry_eq_ok_iff`).
-/

namespace SchemaCompiler.Constraint

variable {c : Constraint} {kind : String} {parameters : Json}

/-! ### Kinds -/

/-- The kinds that are known. -/
def knownKinds : List String :=
  ["not_blank", "not_empty", "not_null", "null", "size", "min", "max", "decimal_min",
    "decimal_max", "positive", "positive_or_zero", "negative", "negative_or_zero", "pattern",
    "email", "digits", "assert_true", "assert_false"]

/-- The keys that a kind has parameters under. -/
def parameterKeys : String → List String
  | "size" => ["min", "max"]
  | "min" | "max" => ["value"]
  | "decimal_min" | "decimal_max" => ["value", "inclusive"]
  | "pattern" | "email" => ["regexp"]
  | "digits" => ["integer", "fraction"]
  | _ => []

/-! ### Constraints and their entries -/

/-- The kind of a constraint says all about it. -/
def StandsAlone : Constraint → Prop
  | size _ _ | min _ | max _ | decimalMin _ _ | decimalMax _ _ | pattern _ | digits _ _ => False
  | email regexp => regexp = none
  | unknown name => name ∉ knownKinds
  | _ => True

/-- The parameters of an entry hold what a constraint of its kind says. -/
def HeldBy (parameters : Json) : Constraint → Prop
  | size least greatest =>
    readCount? "min" parameters = .ok least ∧ readCount? "max" parameters = .ok greatest
  | min value | max value => readInteger (valueParameter parameters) = .ok value
  | decimalMin value inclusive | decimalMax value inclusive =>
    readDecimal (valueParameter parameters) = .ok value ∧ readInclusive parameters = .ok inclusive
  | pattern regexp => readText? "regexp" parameters = .ok (some regexp)
  | email regexp => readText? "regexp" parameters = .ok regexp
  | digits integer fraction =>
    readDigitCount "integer" parameters = .ok integer ∧
      readDigitCount "fraction" parameters = .ok fraction
  | unknown name => name ∉ knownKinds
  | _ => isVoid parameters = true

/-- The kinds of constraints are known, except for the unknown ones. -/
lemma kind_mem_knownKinds (h : ∀ name, c ≠ .unknown name) : c.kind ∈ knownKinds := by
  cases c with
  | unknown name => exact absurd rfl (h name)
  | _ => simp [kind, knownKinds]

/-- A kind that means a constraint is the kind of it, and parameters are not called for. -/
lemma of_ofKind?_eq_some (h : ofKind? kind = some c) :
    c.kind = kind ∧ c.StandsAlone ∧
      (kind ≠ "email" → ∀ parameters, isVoid parameters = true → c.HeldBy parameters) := by
  unfold ofKind? at h
  split at h
  all_goals
    cases h
    try exact ⟨rfl, trivial, fun _ _ hvoid => hvoid⟩
  exact ⟨rfl, rfl, fun hkind => absurd rfl hkind⟩

/-- A kind that means no constraint and needs no parameters is not known. -/
lemma not_mem_knownKinds (h : ofKind? kind = none) (hneeds : needsParameters kind = false) :
    kind ∉ knownKinds := by
  have hall : ∀ kind ∈ knownKinds, (ofKind? kind).isSome = true ∨ needsParameters kind = true := by
    decide
  intro hmem
  rcases hall kind hmem with hsome | hneeded
  · rw [h] at hsome
    cases hsome
  · rw [hneeds] at hneeded
    cases hneeded

/-- A kind that is not known means no constraint. -/
lemma ofKind?_of_not_mem (h : kind ∉ knownKinds) : ofKind? kind = none := by
  cases hkind : ofKind? kind with
  | none => rfl
  | some c =>
    obtain ⟨rfl, halone, -⟩ := of_ofKind?_eq_some hkind
    refine absurd (kind_mem_knownKinds ?_) h
    rintro name rfl
    unfold ofKind? at hkind
    split at hkind <;> cases hkind

/-- A kind that is not known needs no parameters. -/
lemma needsParameters_of_not_mem (h : kind ∉ knownKinds) : needsParameters kind = false := by
  have hall : ∀ needing ∈ ["size", "min", "max", "decimal_min", "decimal_max", "pattern", "digits"],
      needing ∈ knownKinds := by decide
  rw [needsParameters, Bool.eq_false_iff, Ne, List.contains_iff_mem]
  exact fun hmem => h (hall kind hmem)

/-- A kind that says all about a constraint needs no parameters. -/
lemma StandsAlone.needsParameters_eq_false (h : c.StandsAlone) :
    needsParameters c.kind = false := by
  cases c with
  | unknown name => exact needsParameters_of_not_mem h
  | size | min | max | decimalMin | decimalMax | pattern | digits => exact h.elim
  | _ => rfl

/-- A constraint of a known kind without keys is held by parameters that say nothing. -/
lemma HeldBy.isVoid_eq_true (h : c.HeldBy parameters) (hknown : c.kind ∈ knownKinds)
    (hkeys : parameterKeys c.kind = []) : isVoid parameters = true := by
  cases c with
  | size | min | max | decimalMin | decimalMax | pattern | email | digits => cases hkeys
  | unknown name => exact absurd hknown h
  | _ => exact h

/-! ### Reading -/

/-- A map is no integer. -/
lemma readInteger_object_ne (members : List (String × Json)) (value : Int) :
    readInteger (.object members) ≠ .ok value := by
  intro h
  cases h

/-- A map is no decimal. -/
lemma readDecimal_object_ne (members : List (String × Json)) (value : Json.Number) :
    readDecimal (.object members) ≠ .ok value := by
  intro h
  cases h

/-- What is written as a kind alone is a constraint of the kind that can stand alone. -/
lemma ofBare_eq_ok_iff : ofBare kind = .ok c ↔ c.kind = kind ∧ c.StandsAlone := by
  constructor
  · intro h
    unfold ofBare at h
    cases hkind : ofKind? kind with
    | some constraint =>
      simp only [hkind, Except.ok.injEq] at h
      subst h
      exact ⟨(of_ofKind?_eq_some hkind).1, (of_ofKind?_eq_some hkind).2.1⟩
    | none =>
      simp only [hkind] at h
      split at h
      · cases h
      · next hneeds =>
        cases h
        exact ⟨rfl, not_mem_knownKinds hkind (Bool.eq_false_iff.mpr hneeds)⟩
  · rintro ⟨rfl, h⟩
    cases c with
    | unknown name =>
      have hkind : ofKind? name = none := ofKind?_of_not_mem h
      have hneeds : needsParameters name = false := needsParameters_of_not_mem h
      simp [ofBare, Constraint.kind, hkind, hneeds]
    | email regexp =>
      obtain rfl : regexp = none := h
      rfl
    | size | min | max | decimalMin | decimalMax | pattern | digits => exact absurd h not_false
    | _ => rfl

/-- What is written as a kind with parameters is a constraint of the kind that they hold. -/
lemma ofKeyed_eq_ok_iff :
    ofKeyed kind parameters = .ok c ↔ c.kind = kind ∧ c.HeldBy parameters := by
  constructor
  · intro h
    unfold ofKeyed at h
    split at h
    · simp only [bind_eq_ok_iff, pure_eq_ok_iff] at h
      obtain ⟨least, hleast, greatest, hgreatest, rfl⟩ := h
      exact ⟨rfl, hleast, hgreatest⟩
    · obtain ⟨value, hvalue, rfl⟩ := map_eq_ok_iff.mp h
      exact ⟨rfl, hvalue⟩
    · obtain ⟨value, hvalue, rfl⟩ := map_eq_ok_iff.mp h
      exact ⟨rfl, hvalue⟩
    · simp only [bind_eq_ok_iff, pure_eq_ok_iff] at h
      obtain ⟨value, hvalue, inclusive, hinclusive, rfl⟩ := h
      exact ⟨rfl, hvalue, hinclusive⟩
    · simp only [bind_eq_ok_iff, pure_eq_ok_iff] at h
      obtain ⟨value, hvalue, inclusive, hinclusive, rfl⟩ := h
      exact ⟨rfl, hvalue, hinclusive⟩
    · obtain ⟨regexp?, hread, hregexp⟩ := bind_eq_ok_iff.mp h
      split at hregexp
      · cases hregexp
        exact ⟨rfl, hread⟩
      · cases hregexp
    · obtain ⟨regexp?, hread, rfl⟩ := map_eq_ok_iff.mp h
      exact ⟨rfl, hread⟩
    · simp only [bind_eq_ok_iff, pure_eq_ok_iff] at h
      obtain ⟨integer, hinteger, fraction, hfraction, rfl⟩ := h
      exact ⟨rfl, hinteger, hfraction⟩
    · split at h
      · next hkind =>
        cases h
        refine ⟨rfl, not_mem_knownKinds hkind ?_⟩
        simp_all [needsParameters]
      · next constraint hkind =>
        split at h
        · next hvoid =>
          obtain rfl : constraint = c := Except.ok.inj h
          obtain ⟨hname, -, hheld⟩ := of_ofKind?_eq_some hkind
          exact ⟨hname, hheld ‹kind = "email" → False› _ hvoid⟩
        · cases h
  · rintro ⟨rfl, h⟩
    cases c with
    | unknown name =>
      have hkind : ofKind? name = none := ofKind?_of_not_mem h
      rw [Constraint.kind]
      unfold ofKeyed
      split
      all_goals first
        | exact absurd (by decide) h
        | rw [hkind]
    | size least greatest =>
      obtain ⟨hleast, hgreatest⟩ := h
      simp only [ofKeyed, Constraint.kind, hleast, hgreatest]
      rfl
    | min value | max value =>
      have hvalue : readInteger (valueParameter parameters) = .ok value := h
      simp only [ofKeyed, Constraint.kind, hvalue]
      rfl
    | decimalMin value inclusive | decimalMax value inclusive =>
      obtain ⟨hvalue, hinclusive⟩ := h
      simp only [ofKeyed, Constraint.kind, hvalue, hinclusive]
      rfl
    | pattern regexp | email regexp =>
      simp only [HeldBy] at h
      simp only [ofKeyed, Constraint.kind, h]
      rfl
    | digits integer fraction =>
      obtain ⟨hinteger, hfraction⟩ := h
      simp only [ofKeyed, Constraint.kind, hinteger, hfraction]
      rfl
    | _ => exact if_pos h

/-- An entry of a kind with parameters is a constraint of the kind that they hold. -/
lemma ofEntry_keyed_eq_ok_iff : ofEntry (.keyed [(kind, parameters)]) = .ok c ↔
    c.kind = kind ∧ c.HeldBy parameters :=
  mapError_eq_ok_iff.trans ofKeyed_eq_ok_iff

/-- An entry is a constraint exactly if it is the kind of the constraint alone, which can stand
alone, or the kind with parameters that hold the constraint. -/
theorem ofEntry_eq_ok_iff {entry : Entry} : ofEntry entry = .ok c ↔
    entry = .bare c.kind ∧ c.StandsAlone ∨
      ∃ parameters, entry = .keyed [(c.kind, parameters)] ∧ c.HeldBy parameters := by
  constructor
  · intro h
    unfold ofEntry at h
    split at h
    · obtain ⟨rfl, halone⟩ := ofBare_eq_ok_iff.mp (mapError_eq_ok_iff.mp h)
      exact Or.inl ⟨rfl, halone⟩
    · next kind parameters =>
      obtain ⟨rfl, hheld⟩ := ofEntry_keyed_eq_ok_iff.mp h
      exact Or.inr ⟨parameters, rfl, hheld⟩
    · cases h
  · rintro (⟨rfl, halone⟩ | ⟨parameters, rfl, hheld⟩)
    · exact mapError_eq_ok_iff.mpr (ofBare_eq_ok_iff.mpr ⟨rfl, halone⟩)
    · exact ofEntry_keyed_eq_ok_iff.mpr ⟨rfl, hheld⟩

end SchemaCompiler.Constraint
