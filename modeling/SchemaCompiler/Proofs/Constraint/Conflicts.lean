import Mathlib.Data.List.Dedup
import Mathlib.Data.List.Induction
import SchemaCompiler.Proofs.Constraint.Applicability
import SchemaCompiler.Proofs.Constraint.Contributions
import SchemaCompiler.Proofs.Numeric.PowerOfTen
import SchemaCompiler.Proofs.Schema.Built

/-!
# Which conflicts are reported

The conflicts among the constraints on a shape, told from a table of the keywords that each kind of
constraint gives values to: a kind that bounds a keyword several times, and constraints that give
another value to a keyword that keeps its first one (`Mapping.conflicts_ofConstraints`).

The conflicts are followed through the contributions of the constraints, one after another.  What
they amount to after some contributions is `Mapping.Gathers`, which one more contribution keeps
(`Mapping.Gathers.snoc`).  What the constraints that apply contribute is what the table says,
because every number of digits that can be asked for has a limit and a step.
-/

namespace SchemaCompiler

/-! ### Repetitions -/

section Repetitions

variable {α : Type} [DecidableEq α]

/-- What occurs several times, once for each time but one. -/
def repeated (xs : List α) : List α :=
  xs.dedup.flatMap fun x => List.replicate (xs.count x - 1) x

/-- Different values that are replicated are counted apart. -/
lemma count_flatMap_replicate {xs : List α} (hnodup : xs.Nodup) (times : α → Nat) (a : α) :
    (xs.flatMap fun x => List.replicate (times x) x).count a = if a ∈ xs then times a else 0 := by
  induction xs with
  | nil => rfl
  | cons x xs ih =>
    obtain ⟨hx, hnodup⟩ := List.nodup_cons.mp hnodup
    rw [List.flatMap_cons, List.count_append, List.count_replicate, ih hnodup]
    by_cases hsame : x = a
    · subst hsame
      simp [hx]
    · have hmem : a ∈ x :: xs ↔ a ∈ xs := by simp [Ne.symm hsame]
      simp [hsame, hmem]

/-- A value is repeated once less than it occurs. -/
lemma count_repeated (xs : List α) (a : α) : (repeated xs).count a = xs.count a - 1 := by
  rw [repeated, count_flatMap_replicate xs.nodup_dedup]
  by_cases hmem : a ∈ xs
  · rw [if_pos (List.mem_dedup.mpr hmem)]
  · rw [if_neg (mt List.mem_dedup.mp hmem), List.count_eq_zero_of_not_mem hmem]

/-- One more value is repeated if it occurs already. -/
lemma repeated_snoc (xs : List α) (a : α) :
    (repeated (xs ++ [a])).Perm (repeated xs ++ if a ∈ xs then [a] else []) := by
  rw [List.perm_iff_count]
  intro b
  have hsingle : (if a ∈ xs then [a] else []).count b =
      if a ∈ xs then (if a = b then 1 else 0) else 0 := by
    split <;> simp [List.count_singleton]
  rw [List.count_append, count_repeated, count_repeated, List.count_append, List.count_singleton,
    hsingle]
  by_cases hsame : a = b
  · subst hsame
    by_cases hmem : a ∈ xs
    · have hpos : 0 < xs.count a := List.count_pos_iff.mpr hmem
      simp only [beq_self_eq_true, if_true, if_pos hmem]
      omega
    · have hzero : xs.count a = 0 := List.count_eq_zero_of_not_mem hmem
      simp only [beq_self_eq_true, if_true, if_neg hmem]
      omega
  · have hbeq : (a == b) = false := beq_eq_false_iff_ne.mpr hsame
    simp [hsame, hbeq]

end Repetitions

namespace Constraint

/-! ### The table -/

/-- The keyword that bounds the size of a shape from below, if it has a size. -/
def lowerSize : Shape → List String
  | .string => ["minLength"]
  | .array => ["minItems"]
  | .map => ["minProperties"]
  | _ => []

/-- The keyword that bounds the size of a shape from above, if it has a size. -/
def upperSize : Shape → List String
  | .string => ["maxLength"]
  | .array => ["maxItems"]
  | .map => ["maxProperties"]
  | _ => []

/-- The keywords for bounds that a constraint gives values to, if it applies. -/
def bounded (shape : Shape) : Constraint → List String
  | notBlank => ["minLength"]
  | notEmpty => lowerSize shape
  | size least greatest =>
    (if least.isSome then lowerSize shape else []) ++
      if greatest.isSome then upperSize shape else []
  | min _ | decimalMin _ true | positiveOrZero => ["minimum"]
  | max _ | decimalMax _ true | negativeOrZero => ["maximum"]
  | decimalMin _ false | positive => ["exclusiveMinimum"]
  | decimalMax _ false | negative => ["exclusiveMaximum"]
  | digits _ _ => ["exclusiveMaximum", "exclusiveMinimum"]
  | _ => []

/-- The pattern of a constraint. -/
def regexp? : Constraint → Option String
  | pattern regexp => some regexp
  | email regexp => regexp
  | _ => none

/-- The only value that a constraint allows. -/
def asserted? : Constraint → Option Bool
  | assertTrue => some true
  | assertFalse => some false
  | _ => none

/-- The digits after the point that a constraint asks for, if there are any. -/
def fraction? : Constraint → Option Nat
  | digits _ fraction => if fraction = 0 then none else some fraction
  | _ => none

end Constraint

namespace Mapping

open Constraint

/-- The message about a kind that bounds a keyword again. -/
def boundConflict (keyword kind : String) : String :=
  "'" ++ kind ++ "' declared more than once for '" ++ keyword ++ "'; the tighter bound is kept"

/-- The message about a kind that gives another value to a keyword that keeps its first one. -/
def laterConflict (keyword kind : String) : String :=
  "'" ++ kind ++ "' sets '" ++ keyword ++ "' again; the first declaration is kept"

/-- The constraints that apply to a shape. -/
def applicable (shape : Shape) (constraints : List Constraint) : List Constraint :=
  constraints.filter (·.Applies shape)

/-- Of some constraints that apply, the values that they give, each with the kind that gives it. -/
def given {α : Type} (value? : Constraint → Option α) (applicable : List Constraint) :
    List (String × α) :=
  applicable.filterMap fun c => (value? c).map fun value => (c.kind, value)

/-- The bounds of some constraints that apply: the keywords, each with the kind that bounds it. -/
def bounds (shape : Shape) (applicable : List Constraint) : List (String × String) :=
  applicable.flatMap fun c => (c.bounded shape).map fun keyword => (keyword, c.kind)

/-- The conflicts among bounds: each kind once less than it bounds the keyword. -/
def boundConflicts (bounds : List (String × String)) : List String :=
  (repeated bounds).map fun (keyword, kind) => boundConflict keyword kind

/-- The conflicts among patterns: the later ones that differ from the first. -/
def patternConflicts : List (String × String) → List String
  | [] => []
  | (_, first) :: later =>
    (later.filter fun (_, regexp) => regexp ≠ first).map fun (kind, _) =>
      laterConflict "pattern" kind

/-- The conflicts among values of which only the first is kept. -/
def laterConflicts {α : Type} (keyword : String) (values : List (String × α)) : List String :=
  values.tail.map fun (kind, _) => laterConflict keyword kind

end Mapping

/-! ### Contributions by keyword -/

namespace Contribution

/-- The keyword that a contribution bounds. -/
@[simp] def keyword? : Contribution → Option String
  | count keyword _ => some keyword.name
  | bound keyword _ => some keyword.name
  | _ => none

/-- The pattern that is contributed. -/
@[simp] def pattern? : Contribution → Option String
  | pattern regexp => some regexp
  | _ => none

/-- The constant that is contributed. -/
@[simp] def constant? : Contribution → Option Bool
  | constant value => some value
  | _ => none

/-- The step that is contributed. -/
@[simp] def step? : Contribution → Option Json.Number
  | step value => some value
  | _ => none

end Contribution

namespace Mapping

open Constraint

variable {m : Mapping} {kind keyword : String} {bounds patterns : List (String × String)}
  {constants : List (String × Bool)} {steps : List (String × Json.Number)}

/-! ### What has been gathered -/

/-- A mapping has gathered these bounds, patterns, constants and steps, each with the kind that
contributed it. -/
structure Gathers (m : Mapping) (bounds patterns : List (String × String))
    (constants : List (String × Bool)) (steps : List (String × Json.Number)) : Prop where
  conflicts : m.conflicts.Perm (boundConflicts bounds ++ patternConflicts patterns ++
    laterConflicts "const" constants ++ laterConflicts "multipleOf" steps)
  contributed : ∀ pair, pair ∈ m.contributed ↔ pair ∈ bounds
  pattern : m.keywords.pattern = patterns.head?.map (·.2)
  constant : m.keywords.constant = constants.head?.map (Json.bool ·.2)
  multipleOf : m.keywords.multipleOf = steps.head?.map (·.2)

/-- Nothing has been gathered at the start. -/
lemma gathers_nil : Gathers {} [] [] [] [] :=
  ⟨List.Perm.refl [], fun _ => Iff.rfl, rfl, rfl, rfl⟩

/-- A reported conflict is the last one. -/
lemma conflicts_report (m : Mapping) (message : String) :
    (m.report .constraintConflict message).conflicts = m.conflicts ++ [message] := by
  simp [conflicts, report]

/-- A kind that comes too late for a keyword is the last conflict. -/
lemma conflicts_keepFirst (m : Mapping) (keyword kind : String) :
    (m.keepFirst keyword kind).conflicts = m.conflicts ++ [laterConflict keyword kind] :=
  conflicts_report m _

/-- A bound that is noted is a conflict if the kind has contributed to it. -/
lemma conflicts_note (m : Mapping) (keyword kind : String) : (m.note keyword kind).conflicts =
    m.conflicts ++
      if (keyword, kind) ∈ m.contributed then [boundConflict keyword kind] else [] := by
  unfold note
  by_cases hmem : (keyword, kind) ∈ m.contributed
  · rw [if_pos (List.contains_iff_mem.mpr hmem), if_pos hmem, conflicts_report]
    rfl
  · rw [if_neg (mt List.contains_iff_mem.mp hmem), if_neg hmem, List.append_nil]
    rfl

/-- A bound that is noted has been contributed to. -/
lemma mem_contributed_note {pair : String × String} :
    pair ∈ (m.note keyword kind).contributed ↔
      pair ∈ m.contributed ∨ pair = (keyword, kind) := by
  unfold note
  split
  · next hmem =>
    refine ⟨Or.inl, ?_⟩
    rintro (hpair | rfl)
    · exact hpair
    · exact List.contains_iff_mem.mp hmem
  · exact List.mem_append.trans (or_congr_right List.mem_singleton)

/-- One more bound is a conflict if the kind bounds the keyword already. -/
lemma boundConflicts_snoc (bounds : List (String × String)) (keyword kind : String) :
    (boundConflicts (bounds ++ [(keyword, kind)])).Perm (boundConflicts bounds ++
      if (keyword, kind) ∈ bounds then [boundConflict keyword kind] else []) := by
  have hrepeated := (repeated_snoc bounds (keyword, kind)).map fun (keyword, kind) =>
    boundConflict keyword kind
  rw [List.map_append] at hrepeated
  unfold boundConflicts
  split
  · next hmem =>
    rw [if_pos hmem] at hrepeated
    exact hrepeated
  · next hmem =>
    rw [if_neg hmem] at hrepeated
    exact hrepeated

/-- One more pattern is a conflict if it differs from the first. -/
lemma patternConflicts_snoc (first : String × String) (patterns : List (String × String))
    (kind regexp : String) : patternConflicts (first :: patterns ++ [(kind, regexp)]) =
      patternConflicts (first :: patterns) ++
        if first.2 = regexp then [] else [laterConflict "pattern" kind] := by
  obtain ⟨firstKind, firstRegexp⟩ := first
  simp only [List.cons_append, patternConflicts, List.filter_append, List.map_append]
  congr 1
  by_cases hsame : firstRegexp = regexp
  · simp [hsame]
  · simp [hsame, Ne.symm hsame]

/-- One more value is a conflict if there is one already. -/
lemma laterConflicts_snoc {α : Type} (keyword : String) (first : String × α)
    (values : List (String × α)) (kind : String) (value : α) :
    laterConflicts keyword (first :: values ++ [(kind, value)]) =
      laterConflicts keyword (first :: values) ++ [laterConflict keyword kind] := by
  simp [laterConflicts]

/-- A new conflict in one of the four parts is a new conflict. -/
lemma perm_append_of_count {all new a b c d a' b' c' d' : List String}
    (hall : all.Perm (a ++ b ++ c ++ d))
    (hnew : ∀ message, a'.count message + b'.count message + c'.count message + d'.count message =
      a.count message + b.count message + c.count message + d.count message +
        new.count message) :
    (all ++ new).Perm (a' ++ b' ++ c' ++ d') := by
  rw [List.perm_iff_count] at hall ⊢
  intro message
  have hbefore := hall message
  have hafter := hnew message
  simp only [List.count_append] at hbefore ⊢
  omega

/-- One more bound is gathered when it is noted. -/
lemma Gathers.note (h : m.Gathers bounds patterns constants steps) (keyword kind : String) :
    (m.note keyword kind).Gathers (bounds ++ [(keyword, kind)]) patterns constants steps where
  conflicts := by
    simp only [conflicts_note, h.contributed]
    refine perm_append_of_count h.conflicts fun message => ?_
    have hcount := (boundConflicts_snoc bounds keyword kind).count_eq message
    rw [List.count_append] at hcount
    omega
  contributed pair := by
    rw [mem_contributed_note, h.contributed, List.mem_append, List.mem_singleton]
  pattern := by rw [keywords_note, h.pattern]
  constant := by rw [keywords_note, h.constant]
  multipleOf := by rw [keywords_note, h.multipleOf]

/-- What is gathered does not depend on the other keywords. -/
lemma Gathers.of_keywords (h : m.Gathers bounds patterns constants steps) {k : Keywords}
    (hpattern : k.pattern = m.keywords.pattern) (hconstant : k.constant = m.keywords.constant)
    (hmultipleOf : k.multipleOf = m.keywords.multipleOf) :
    { m with keywords := k }.Gathers bounds patterns constants steps :=
  ⟨h.conflicts, h.contributed, hpattern.trans h.pattern, hconstant.trans h.constant,
    hmultipleOf.trans h.multipleOf⟩

/-- One more pattern is gathered. -/
lemma Gathers.snoc_pattern (h : m.Gathers bounds patterns constants steps) (kind regexp : String) :
    (contribute kind m (.pattern regexp)).Gathers bounds (patterns ++ [(kind, regexp)]) constants
      steps := by
  have hpattern := h.pattern
  cases patterns with
  | nil =>
    have hkept : contribute kind m (.pattern regexp) =
        { m with keywords := { m.keywords with pattern := some regexp } } := by
      simp only [contribute, hpattern, List.head?_nil, Option.map_none]
    rw [hkept]
    exact ⟨h.conflicts, h.contributed, rfl, h.constant, h.multipleOf⟩
  | cons first patterns =>
    have hkept : contribute kind m (.pattern regexp) =
        if first.2 = regexp then m else m.keepFirst "pattern" kind := by
      simp only [contribute, hpattern, List.head?_cons, Option.map_some]
    have hlater := patternConflicts_snoc first patterns kind regexp
    rw [hkept]
    split
    · next hsame =>
      rw [if_pos hsame, List.append_nil] at hlater
      exact ⟨hlater ▸ h.conflicts, h.contributed, h.pattern, h.constant, h.multipleOf⟩
    · next hdiffers =>
      rw [if_neg hdiffers] at hlater
      refine ⟨?_, h.contributed, h.pattern, h.constant, h.multipleOf⟩
      rw [conflicts_keepFirst]
      refine perm_append_of_count h.conflicts fun message => ?_
      rw [hlater, List.count_append]
      omega

/-- One more constant is gathered. -/
lemma Gathers.snoc_constant (h : m.Gathers bounds patterns constants steps) (kind : String)
    (value : Bool) : (contribute kind m (.constant value)).Gathers bounds patterns
      (constants ++ [(kind, value)]) steps := by
  have hconstant := h.constant
  cases constants with
  | nil =>
    have hkept : contribute kind m (.constant value) =
        { m with keywords := { m.keywords with constant := some (.bool value) } } := by
      simp [contribute, hconstant]
    rw [hkept]
    exact ⟨h.conflicts, h.contributed, h.pattern, rfl, h.multipleOf⟩
  | cons first constants =>
    have hkept : contribute kind m (.constant value) = m.keepFirst "const" kind := by
      simp [contribute, hconstant]
    rw [hkept]
    refine ⟨?_, h.contributed, h.pattern, h.constant, h.multipleOf⟩
    rw [conflicts_keepFirst]
    refine perm_append_of_count h.conflicts fun message => ?_
    rw [laterConflicts_snoc, List.count_append]
    omega

/-- One more step is gathered. -/
lemma Gathers.snoc_step (h : m.Gathers bounds patterns constants steps) (kind : String)
    (value : Json.Number) : (contribute kind m (.step value)).Gathers bounds patterns constants
      (steps ++ [(kind, value)]) := by
  have hmultipleOf := h.multipleOf
  cases steps with
  | nil =>
    have hkept : contribute kind m (.step value) =
        { m with keywords := { m.keywords with multipleOf := some value } } := by
      simp [contribute, hmultipleOf]
    rw [hkept]
    exact ⟨h.conflicts, h.contributed, h.pattern, h.constant, rfl⟩
  | cons first steps =>
    have hkept : contribute kind m (.step value) = m.keepFirst "multipleOf" kind := by
      simp [contribute, hmultipleOf]
    rw [hkept]
    refine ⟨?_, h.contributed, h.pattern, h.constant, h.multipleOf⟩
    rw [conflicts_keepFirst]
    refine perm_append_of_count h.conflicts fun message => ?_
    rw [laterConflicts_snoc, List.count_append]
    omega

/-- A kept or replaced count leaves the pattern. -/
lemma pattern_tightenCount (k : Keywords) (keyword : Keywords.Count) (value : Nat) :
    (tightenCount k keyword value).pattern = k.pattern := by
  rcases tightenCount_or k keyword value with heq | heq
  · rw [heq]
  · rw [heq]
    cases keyword <;> rfl

/-- A kept or replaced bound leaves the pattern. -/
lemma pattern_tightenBound (k : Keywords) (keyword : Keywords.Bound) (value : Json.Number) :
    (tightenBound k keyword value).pattern = k.pattern := by
  rcases tightenBound_or k keyword value with heq | heq
  · rw [heq]
  · rw [heq]
    cases keyword <;> rfl

/-- The bounds, patterns, constants and steps of one more contribution are gathered. -/
lemma Gathers.snoc (h : m.Gathers bounds patterns constants steps) (kind : String)
    (x : Contribution) : (contribute kind m x).Gathers
      (bounds ++ (x.keyword?.map (·, kind)).toList)
      (patterns ++ (x.pattern?.map (kind, ·)).toList)
      (constants ++ (x.constant?.map (kind, ·)).toList)
      (steps ++ (x.step?.map (kind, ·)).toList) := by
  cases x with
  | count keyword value =>
    have hkept := kept_tightenCount (m.note keyword.name kind).keywords keyword value
    have hnote : (contribute kind m (.count keyword value)).Gathers
        (bounds ++ [(keyword.name, kind)]) patterns constants steps :=
      (h.note keyword.name kind).of_keywords (pattern_tightenCount _ keyword value) hkept.1 hkept.2
    simpa using hnote
  | bound keyword value =>
    have hkept := kept_tightenBound (m.note keyword.name kind).keywords keyword value
    have hnote : (contribute kind m (.bound keyword value)).Gathers
        (bounds ++ [(keyword.name, kind)]) patterns constants steps :=
      (h.note keyword.name kind).of_keywords (pattern_tightenBound _ keyword value) hkept.1 hkept.2
    simpa using hnote
  | pattern regexp => simpa using h.snoc_pattern kind regexp
  | constant value => simpa using h.snoc_constant kind value
  | step value => simpa using h.snoc_step kind value
  | format name =>
    have hkept : (contribute kind m (.format name)).Gathers bounds patterns constants steps :=
      h.of_keywords rfl rfl rfl
    simpa using hkept
  | nullOnly =>
    have hkept : (contribute kind m .nullOnly).Gathers bounds patterns constants steps :=
      ⟨h.conflicts, h.contributed, h.pattern, h.constant, h.multipleOf⟩
    simpa using hkept

/-- The bounds, patterns, constants and steps of some contributions are gathered. -/
lemma Gathers.foldl_contribute (kind : String) (contributions : List Contribution)
    {m : Mapping} {bounds patterns : List (String × String)} {constants : List (String × Bool)}
    {steps : List (String × Json.Number)} (h : m.Gathers bounds patterns constants steps) :
    (contributions.foldl (contribute kind) m).Gathers
      (bounds ++ (contributions.filterMap (·.keyword?)).map (·, kind))
      (patterns ++ (contributions.filterMap (·.pattern?)).map (kind, ·))
      (constants ++ (contributions.filterMap (·.constant?)).map (kind, ·))
      (steps ++ (contributions.filterMap (·.step?)).map (kind, ·)) := by
  induction contributions generalizing m bounds patterns constants steps with
  | nil => simpa using h
  | cons x contributions ih =>
    have hrest := ih (h.snoc kind x)
    have hcons : ∀ {α β : Type} (part : Contribution → Option α) (pair : α → β),
        ((x :: contributions).filterMap part).map pair =
          ((part x).map pair).toList ++ (contributions.filterMap part).map pair := by
      intro α β part pair
      cases hpart : part x with
      | none => simp [List.filterMap_cons_none hpart]
      | some value => simp [List.filterMap_cons_some hpart]
    simp only [List.append_assoc] at hrest
    simp only [hcons]
    exact hrest

end Mapping

namespace Constraint

variable {shape : Shape} {c : Constraint}

/-! ### The contributions of the table -/

/-- The step of a constraint, if it asks for digits after the point. -/
def step? (c : Constraint) : Option Json.Number := c.fraction?.bind Json.Number.decimalStep?

/-- A constraint that does not apply contributes nothing. -/
lemma contributions_of_not_applies (h : ¬c.Applies shape) :
    (c.effect shape).contributions = [] := by
  by_cases hknown : ∃ name, c = .unknown name
  · obtain ⟨name, rfl⟩ := hknown
    rfl
  · rw [effect_of_not_applies (fun name hname => hknown ⟨name, hname⟩) h,
      Effect.contributions_inapplicable]

/-- The digits that apply contribute both limits, and a step unless there is nothing after the
point. -/
lemma contributions_digits {integer fraction : Nat}
    (h : (digits integer fraction).Applies shape) : ∃ limit,
      ((digits integer fraction).effect shape).contributions =
        [.bound .exclusiveMaximum limit, .bound .exclusiveMinimum limit.negate] ++
          ((digits integer fraction).step?.map Contribution.step).toList := by
  obtain ⟨hnumeric, hinteger, hfraction⟩ := h
  obtain ⟨limit, hlimit⟩ := Json.Number.exists_powerOfTen? hinteger
  refine ⟨limit, ?_⟩
  have hfew : ¬(maxDigits < integer ∨ maxDigits < fraction) := by omega
  rw [effect, if_pos hnumeric, digitsEffect, if_neg hfew, hlimit,
    Effect.contributions_contributes, step?, fraction?]
  split
  · rfl
  · rfl

/-- A constraint that applies contributes what the table says. -/
lemma contributions_of_applies (h : c.Applies shape) :
    (c.effect shape).contributions.filterMap (·.keyword?) = c.bounded shape ∧
      (c.effect shape).contributions.filterMap (·.pattern?) = c.regexp?.toList ∧
      (c.effect shape).contributions.filterMap (·.constant?) = c.asserted?.toList ∧
      (c.effect shape).contributions.filterMap (·.step?) = c.step?.toList := by
  cases c with
  | notNull | null => exact ⟨rfl, rfl, rfl, rfl⟩
  | notBlank =>
    obtain rfl : shape = .string := h
    exact ⟨rfl, rfl, rfl, rfl⟩
  | notEmpty => rcases h with rfl | rfl | rfl <;> exact ⟨rfl, rfl, rfl, rfl⟩
  | size least greatest =>
    rcases h with rfl | rfl | rfl <;> cases least <;> cases greatest <;>
      exact ⟨rfl, rfl, rfl, rfl⟩
  | min | max | positive | positiveOrZero | negative | negativeOrZero =>
    have hnumeric : shape.isNumeric = true := h
    rw [effect, applied, if_pos hnumeric]
    exact ⟨rfl, rfl, rfl, rfl⟩
  | decimalMin value inclusive | decimalMax value inclusive =>
    have hnumeric : shape.isNumeric = true := h
    rw [effect, applied, if_pos hnumeric]
    cases inclusive <;> exact ⟨rfl, rfl, rfl, rfl⟩
  | pattern regexp =>
    obtain rfl : shape = .string := h
    exact ⟨rfl, rfl, rfl, rfl⟩
  | email regexp =>
    obtain rfl : shape = .string := h
    cases regexp <;> exact ⟨rfl, rfl, rfl, rfl⟩
  | digits integer fraction =>
    obtain ⟨limit, hcontributions⟩ := contributions_digits h
    rw [hcontributions]
    cases (digits integer fraction).step? <;> exact ⟨rfl, rfl, rfl, rfl⟩
  | assertTrue | assertFalse =>
    obtain rfl : shape = .boolean := h
    exact ⟨rfl, rfl, rfl, rfl⟩
  | unknown name => exact absurd h not_false

/-- Digits that apply have a step if there are any after the point. -/
lemma exists_step_of_applies {fraction : Nat} (h : c.Applies shape)
    (hfraction : c.fraction? = some fraction) :
    ∃ step, Json.Number.decimalStep? fraction = some step := by
  cases c with
  | digits integer asked =>
    by_cases hzero : asked = 0
    · rw [fraction?, if_pos hzero] at hfraction
      cases hfraction
    · rw [fraction?, if_neg hzero] at hfraction
      cases hfraction
      exact Json.Number.exists_decimalStep? (Nat.pos_of_ne_zero hzero) h.2.2
  | _ => cases hfraction

end Constraint

namespace Mapping

open Constraint

variable {m : Mapping} {shape : Shape} {bounds patterns : List (String × String)}
  {constants : List (String × Bool)} {steps : List (String × Json.Number)}

/-! ### Runs -/

/-- What is reported otherwise is no conflict. -/
lemma Gathers.report (h : m.Gathers bounds patterns constants steps) {kind : DiagnosticKind}
    (hkind : kind ≠ .constraintConflict) (message : String) :
    (m.report kind message).Gathers bounds patterns constants steps := by
  have hconflicts : (m.report kind message).conflicts = m.conflicts := by
    simp [Mapping.conflicts, Mapping.report, hkind]
  exact ⟨hconflicts ▸ h.conflicts, h.contributed, h.pattern, h.constant, h.multipleOf⟩

/-- The bounds, patterns, constants and steps of one more constraint are gathered. -/
lemma Gathers.apply (h : m.Gathers bounds patterns constants steps) (shape : Shape)
    (c : Constraint) : (apply shape m c).Gathers
      (bounds ++ ((c.effect shape).contributions.filterMap (·.keyword?)).map (·, c.kind))
      (patterns ++ ((c.effect shape).contributions.filterMap (·.pattern?)).map (c.kind, ·))
      (constants ++ ((c.effect shape).contributions.filterMap (·.constant?)).map (c.kind, ·))
      (steps ++ ((c.effect shape).contributions.filterMap (·.step?)).map (c.kind, ·)) := by
  unfold Mapping.apply
  cases c.effect shape with
  | contributes contributions => exact h.foldl_contribute c.kind contributions
  | inapplicable => simpa using h.report (by decide) _
  | unmapped name => simpa using h.report (by decide) _

/-- The bounds of one more constraint come last. -/
lemma bounds_snoc (shape : Shape) (applicable : List Constraint) (c : Constraint) :
    Mapping.bounds shape (applicable ++ [c]) =
      Mapping.bounds shape applicable ++ (c.bounded shape).map (·, c.kind) := by
  simp [Mapping.bounds]

/-- The value that one more constraint gives comes last. -/
lemma given_snoc {α : Type} (value? : Constraint → Option α) (applicable : List Constraint)
    (c : Constraint) : given value? (applicable ++ [c]) =
      given value? applicable ++ (value? c).toList.map (c.kind, ·) := by
  cases hvalue : value? c <;> simp [given, hvalue]

/-- What a list of constraints gathers is told by the table, from those that apply. -/
theorem gathers_ofConstraints (shape : Shape) (constraints : List Constraint) :
    (ofConstraints shape constraints).Gathers (Mapping.bounds shape (applicable shape constraints))
      (given regexp? (applicable shape constraints))
      (given asserted? (applicable shape constraints))
      (given Constraint.step? (applicable shape constraints)) := by
  induction constraints using List.reverseRecOn with
  | nil => exact gathers_nil
  | append_singleton constraints c ih =>
    have hnext := ih.apply shape c
    rw [ofConstraints, List.foldl_append, List.foldl_cons, List.foldl_nil, ← ofConstraints]
    by_cases happlies : c.Applies shape
    · have hlast : applicable shape (constraints ++ [c]) = applicable shape constraints ++ [c] := by
        simp [applicable, happlies]
      obtain ⟨hbounded, hpattern, hconstant, hstep⟩ := contributions_of_applies happlies
      rw [hbounded, hpattern, hconstant, hstep] at hnext
      rw [hlast, bounds_snoc, given_snoc, given_snoc, given_snoc]
      exact hnext
    · have hlast : applicable shape (constraints ++ [c]) = applicable shape constraints := by
        simp [applicable, happlies]
      rw [contributions_of_not_applies happlies] at hnext
      rw [hlast]
      simpa using hnext

/-- Steps are given by the constraints that ask for digits after the point. -/
lemma given_step (shape : Shape) (constraints : List Constraint) :
    (given Constraint.step? (applicable shape constraints)).map
        (fun (kind, step) => (kind, some step)) =
      (given fraction? (applicable shape constraints)).map fun (kind, fraction) =>
        (kind, Json.Number.decimalStep? fraction) := by
  have happlies : ∀ c ∈ applicable shape constraints, c.Applies shape := fun c hc =>
    of_decide_eq_true (List.mem_filter.mp hc).2
  generalize applicable shape constraints = applicable at happlies ⊢
  induction applicable with
  | nil => rfl
  | cons c applicable ih =>
    have hrest := ih fun other hother => happlies other (List.mem_cons_of_mem _ hother)
    cases hfraction : c.fraction? with
    | none => simpa [given, Constraint.step?, hfraction] using hrest
    | some fraction =>
      obtain ⟨step, hstep⟩ := exists_step_of_applies (happlies c List.mem_cons_self) hfraction
      simpa [given, Constraint.step?, hfraction, hstep] using hrest

/-- Conflicts are told by the kinds alone. -/
lemma laterConflicts_map {α β : Type} (keyword : String) (f : α → β) (values : List (String × α)) :
    laterConflicts keyword (values.map fun (kind, value) => (kind, f value)) =
      laterConflicts keyword values := by
  simp [laterConflicts, ← List.map_tail, Function.comp_def]

/-- The diagnostics about conflicts are the conflicts at the place. -/
lemma filter_diagnostics (m : Mapping) (location : String) :
    (m.diagnostics location).filter (·.kind = .constraintConflict) =
      m.conflicts.map fun message => ⟨.constraintConflict, location, message⟩ := by
  unfold diagnostics conflicts
  induction m.findings with
  | nil => rfl
  | cons finding findings ih =>
    obtain ⟨kind, message⟩ := finding
    by_cases hkind : kind = .constraintConflict
    · simpa [hkind] using ih
    · simpa [hkind] using ih

/-- Conflicts are reported exactly, for every shape and every list of constraints: of those that
apply, each kind that bounds a keyword is reported once less than it does so, a pattern is reported
if it differs from the first, and so is every constant and every step after the first.  The pattern,
the constant and the step that are kept are those of the first constraints that give any. -/
theorem conflicts_ofConstraints (shape : Shape) (constraints : List Constraint)
    (location : String) :
    (((ofConstraints shape constraints).diagnostics location).filter
        (·.kind = .constraintConflict)).Perm
      ((boundConflicts (Mapping.bounds shape (applicable shape constraints)) ++
        patternConflicts (given regexp? (applicable shape constraints)) ++
        laterConflicts "const" (given asserted? (applicable shape constraints)) ++
        laterConflicts "multipleOf" (given fraction? (applicable shape constraints))).map
          fun message => ⟨.constraintConflict, location, message⟩) ∧
      (ofConstraints shape constraints).keywords.pattern =
        (given regexp? (applicable shape constraints)).head?.map (·.2) ∧
      (ofConstraints shape constraints).keywords.constant =
        (given asserted? (applicable shape constraints)).head?.map (Json.bool ·.2) ∧
      (ofConstraints shape constraints).keywords.multipleOf.map some =
        (given fraction? (applicable shape constraints)).head?.map
          (Json.Number.decimalStep? ·.2) := by
  have hgathers := gathers_ofConstraints shape constraints
  have hsteps := given_step shape constraints
  refine ⟨?_, hgathers.pattern, hgathers.constant, ?_⟩
  · have hlater := congrArg (laterConflicts "multipleOf") hsteps
    rw [laterConflicts_map, laterConflicts_map] at hlater
    rw [filter_diagnostics, ← hlater]
    exact hgathers.conflicts.map _
  · have hfirst := congrArg (·.head?.map Prod.snd) hsteps
    simpa [hgathers.multipleOf, Function.comp_def] using hfirst

end Mapping

end SchemaCompiler
