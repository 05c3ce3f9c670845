import Mathlib.Tactic.Lemma
import SchemaCompiler.Constraint.Keywords

/-!
# Constraints without an effect

Which constraints restrict the values of a shape is told by a table (`Constraint.Applies`).  A
constraint that does not apply, one of an unknown kind, and `not_null`, which is no matter of
keywords, only leave a remark, or nothing at all (`Mapping.apply_idle`).

What is made of the other constraints does not depend on the remarks that are there already
(`Mapping.foldl_after`).  So a list with such a constraint gives what the list without it gives, and
one remark more (`Mapping.ofConstraints_insert`).
-/

namespace SchemaCompiler

namespace Constraint

/-! ### The table -/

/-- The constraints that restrict the values of a shape. -/
def Applies (shape : Shape) : Constraint → Prop
  | notNull | null => True
  | notBlank | pattern _ | email _ => shape = .string
  | notEmpty | size _ _ => shape = .string ∨ shape = .array ∨ shape = .map
  | min _ | max _ | decimalMin _ _ | decimalMax _ _ | positive | positiveOrZero | negative
  | negativeOrZero => shape.isNumeric = true
  | digits integer fraction =>
    shape.isNumeric = true ∧ integer ≤ maxDigits ∧ fraction ≤ maxDigits
  | assertTrue | assertFalse => shape = .boolean
  | unknown _ => False

instance (shape : Shape) (c : Constraint) : Decidable (c.Applies shape) := by
  cases c <;> unfold Applies <;> infer_instance

/-- A constraint contributes nothing to a shape: it does not apply, or it is `not_null`. -/
def Idle (shape : Shape) (c : Constraint) : Prop := c = .notNull ∨ ¬c.Applies shape

instance (shape : Shape) (c : Constraint) : Decidable (c.Idle shape) := by
  unfold Idle
  infer_instance

/-- What is reported about a constraint that contributes nothing. -/
def remarks (shape : Shape) : Constraint → List (DiagnosticKind × String)
  | notNull => []
  | unknown name => [(.unknownConstraint, "constraint '" ++ name ++ "' has no schema mapping")]
  | c =>
    [(.inapplicableConstraint,
      "'" ++ c.kind ++ "' does not apply to " ++ shape.label ++ " values")]

variable {shape : Shape} {c : Constraint}

/-- A shape without a size has no keyword for it. -/
lemma minCount?_eq_none (h : ¬(shape = .string ∨ shape = .array ∨ shape = .map)) :
    minCount? shape = none := by
  cases shape with
  | string => exact absurd (Or.inl rfl) h
  | array => exact absurd (Or.inr (Or.inl rfl)) h
  | map => exact absurd (Or.inr (Or.inr rfl)) h
  | _ => rfl

/-- Too many digits cannot be asked for. -/
lemma digitsEffect_of_many {integer fraction : Nat}
    (h : ¬(integer ≤ maxDigits ∧ fraction ≤ maxDigits)) :
    digitsEffect integer fraction = .inapplicable := by
  have hmany : maxDigits < integer ∨ maxDigits < fraction := by omega
  rw [digitsEffect, if_pos hmany]

/-- Nothing is contributed where the condition fails. -/
lemma applied_of_not {condition : Prop} [Decidable condition] (h : ¬condition)
    (contributions : List Contribution) : applied condition contributions = .inapplicable :=
  if_neg (by rwa [decide_eq_true_eq])

/-- A constraint of a known kind that does not apply has no effect. -/
lemma effect_of_not_applies (hknown : ∀ name, c ≠ .unknown name) (h : ¬c.Applies shape) :
    c.effect shape = .inapplicable := by
  cases c with
  | notNull => exact absurd trivial h
  | null => exact absurd trivial h
  | notBlank => exact if_neg h
  | notEmpty => rw [effect, minCount?_eq_none h, counting]
  | size least greatest => rw [effect, minCount?_eq_none h]
  | pattern | email | assertTrue | assertFalse => exact applied_of_not h _
  | min | max | decimalMin | decimalMax | positive | positiveOrZero | negative | negativeOrZero =>
    exact if_neg h
  | digits integer fraction =>
    by_cases hnumeric : shape.isNumeric = true
    · have hmany : ¬(integer ≤ maxDigits ∧ fraction ≤ maxDigits) := fun hfew => h ⟨hnumeric, hfew⟩
      rw [effect, if_pos hnumeric, digitsEffect_of_many hmany]
    · exact if_neg hnumeric
  | unknown name => exact absurd rfl (hknown name)

end Constraint

namespace Mapping

open Constraint

variable {shape : Shape} {c : Constraint}

/-! ### Remarks that are there already -/

/-- The same mapping, with findings that were made before. -/
def after (m : Mapping) (prior : List (DiagnosticKind × String)) : Mapping :=
  { m with findings := prior ++ m.findings }

/-- A later finding comes last. -/
lemma report_after (m : Mapping) (prior : List (DiagnosticKind × String)) (kind : DiagnosticKind)
    (message : String) :
    (m.after prior).report kind message = (m.report kind message).after prior := by
  simp [report, after]

/-- What is noted does not depend on the findings. -/
lemma note_after (m : Mapping) (prior : List (DiagnosticKind × String)) (keyword kind : String) :
    (m.after prior).note keyword kind = (m.note keyword kind).after prior := by
  have hcontributed : (m.after prior).contributed = m.contributed := rfl
  unfold note
  rw [hcontributed, report_after]
  split <;> rfl

/-- What is contributed does not depend on the findings. -/
lemma contribute_after (kind : String) (m : Mapping) (prior : List (DiagnosticKind × String))
    (x : Contribution) :
    contribute kind (m.after prior) x = (contribute kind m x).after prior := by
  have hkeywords : ∀ m' : Mapping, (m'.after prior).keywords = m'.keywords := fun _ => rfl
  cases x with
  | count keyword value =>
    simp only [contribute, note_after, hkeywords]
    rfl
  | bound keyword value =>
    simp only [contribute, note_after, hkeywords]
    rfl
  | pattern regexp =>
    simp only [contribute, hkeywords]
    split
    · rfl
    · split
      · rfl
      · exact report_after ..
  | constant value =>
    simp only [contribute, hkeywords]
    split
    · exact report_after ..
    · rfl
  | step value =>
    simp only [contribute, hkeywords]
    split
    · exact report_after ..
    · rfl
  | format name => rfl
  | nullOnly => rfl

/-- If no step depends on the findings, no sequence of steps does. -/
lemma foldl_after_of_step {α : Type} {step : Mapping → α → Mapping}
    (hstep : ∀ m prior a, step (m.after prior) a = (step m a).after prior) (steps : List α)
    (m : Mapping) (prior : List (DiagnosticKind × String)) :
    steps.foldl step (m.after prior) = (steps.foldl step m).after prior := by
  induction steps generalizing m with
  | nil => rfl
  | cons a steps ih => rw [List.foldl_cons, hstep, ih, List.foldl_cons]

/-- What is made of a constraint does not depend on the findings. -/
lemma apply_after (m : Mapping) (prior : List (DiagnosticKind × String)) (c : Constraint) :
    apply shape (m.after prior) c = (apply shape m c).after prior := by
  unfold apply
  split
  · exact foldl_after_of_step (contribute_after c.kind) ..
  · exact report_after ..
  · exact report_after ..

/-- What is made of some constraints does not depend on the findings. -/
lemma foldl_after (constraints : List Constraint) (m : Mapping)
    (prior : List (DiagnosticKind × String)) :
    constraints.foldl (apply shape) (m.after prior) =
      (constraints.foldl (apply shape) m).after prior :=
  foldl_after_of_step apply_after constraints m prior

/-- What some constraints make of a mapping is what they make of it without its findings, after
these. -/
lemma foldl_eq_after (constraints : List Constraint) (m : Mapping) :
    constraints.foldl (apply shape) m =
      (constraints.foldl (apply shape) { m with findings := [] }).after m.findings := by
  rw [← foldl_after]
  simp only [after, List.append_nil]

/-! ### Idle constraints -/

/-- A constraint that contributes nothing leaves its remarks. -/
lemma apply_idle (h : c.Idle shape) (m : Mapping) :
    apply shape m c = { m with findings := m.findings ++ c.remarks shape } := by
  cases c with
  | notNull =>
    rw [remarks, List.append_nil]
    rfl
  | unknown name => rfl
  | null =>
    rcases h with h | h
    · cases h
    · exact absurd trivial h
  | _ =>
    have hnot := h.resolve_left fun hsame => by cases hsame
    have heffect := effect_of_not_applies (fun name hsame => by cases hsame) hnot
    unfold apply
    rw [heffect]
    rfl

/-- The messages about conflicts, one after another. -/
def conflicts (m : Mapping) : List String :=
  m.findings.filterMap fun (kind, message) =>
    if kind = .constraintConflict then some message else none

/-- Remarks are not about conflicts. -/
lemma filterMap_remarks (shape : Shape) (c : Constraint) :
    ((c.remarks shape).filterMap fun (kind, message) =>
      if kind = .constraintConflict then some message else none) = [] := by
  cases c <;> rfl

/-- A constraint that does not apply to a shape, one of an unknown kind and `not_null` make no
difference wherever they stand in a list, but for a remark at their place: the keywords are the
same, so are the conflicts, and the findings are those without the constraint and its remark between
what is found before it and what is found after it. -/
theorem ofConstraints_insert (h : c.Idle shape) (before later : List Constraint)
    (location : String) :
    (ofConstraints shape (before ++ c :: later)).keywords =
        (ofConstraints shape (before ++ later)).keywords ∧
      (ofConstraints shape (before ++ c :: later)).nullOnly =
        (ofConstraints shape (before ++ later)).nullOnly ∧
      (ofConstraints shape (before ++ c :: later)).conflicts =
        (ofConstraints shape (before ++ later)).conflicts ∧
      ∃ found,
        (ofConstraints shape (before ++ later)).diagnostics location =
          (ofConstraints shape before).diagnostics location ++ found ∧
        (ofConstraints shape (before ++ c :: later)).diagnostics location =
          (ofConstraints shape before).diagnostics location ++
            (c.remarks shape).map (fun (kind, message) => ⟨kind, location, message⟩) ++ found := by
  -- The constraints after the place start from the same mapping, but for its findings.
  let start : Mapping := { ofConstraints shape before with findings := [] }
  let rest := later.foldl (apply shape) start
  have hplain : ofConstraints shape (before ++ later) =
      rest.after (ofConstraints shape before).findings := by
    rw [ofConstraints, List.foldl_append]
    exact foldl_eq_after later (ofConstraints shape before)
  have hinserted : ofConstraints shape (before ++ c :: later) =
      rest.after ((ofConstraints shape before).findings ++ c.remarks shape) := by
    rw [ofConstraints, List.foldl_append, List.foldl_cons, ← ofConstraints, apply_idle h]
    exact foldl_eq_after later _
  rw [hplain, hinserted]
  refine ⟨rfl, rfl, ?_, rest.diagnostics location, ?_, ?_⟩
  · simp only [conflicts, after, List.filterMap_append, filterMap_remarks, List.append_nil]
  · simp only [diagnostics, after, List.map_append]
  · simp only [diagnostics, after, List.map_append]

/-- Digits beyond the greatest number of them, between two bounds of one kind: the conflict of these
is found all the same. -/
theorem ofConstraints_insert_digits : (Constraint.digits 400 2).Idle .number ∧
    (ofConstraints .number [.min 3, .digits 400 2, .min 5]).keywords =
      (ofConstraints .number [.min 3, .min 5]).keywords ∧
    (ofConstraints .number [.min 3, .digits 400 2, .min 5]).diagnostics "Llama.age" =
      [ ⟨.inapplicableConstraint, "Llama.age", "'digits' does not apply to number values"⟩,
        ⟨.constraintConflict, "Llama.age",
          "'min' declared more than once for 'minimum'; the tighter bound is kept"⟩ ] := by
  have hidle : (Constraint.digits 400 2).Idle .number := by decide
  obtain ⟨hkeywords, -, -, found, hplain, hinserted⟩ :=
    ofConstraints_insert hidle [.min 3] [.min 5] "Llama.age"
  have hconflict : found = [⟨.constraintConflict, "Llama.age",
      "'min' declared more than once for 'minimum'; the tighter bound is kept"⟩] := hplain.symm
  rw [hconflict] at hinserted
  exact ⟨hidle, hkeywords, hinserted⟩

end Mapping

end SchemaCompiler
