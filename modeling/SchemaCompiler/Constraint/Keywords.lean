import SchemaCompiler.Constraint.Basic
import SchemaCompiler.Diagnostic
import SchemaCompiler.Schema.Keywords
import SchemaCompiler.Shape

/-!
# Constraints as keywords

A constraint contributes values to keywords, depending on the shape of the value it restricts
(`Constraint.effect`). `Mapping.ofConstraints` gathers the contributions of a list: of two values
for one bound the tighter is kept, and of patterns, constants and steps the first. Two contributions
of one kind to one bound, and a later pattern, constant or step, are reported as conflicts.
-/

namespace SchemaCompiler

/-- A value that a constraint gives to a keyword. -/
inductive Contribution where
  | count (keyword : Keywords.Count) (value : Nat)
  | bound (keyword : Keywords.Bound) (value : Json.Number)
  | pattern (regexp : String)
  | format (name : String)
  | constant (value : Bool)
  | step (value : Json.Number)
  /-- Null is the only value. -/
  | nullOnly

/-- What a constraint does to a value of some shape. -/
inductive Effect where
  | contributes (contributions : List Contribution)
  | inapplicable
  /-- The kind is unknown. -/
  | unmapped (name : String)

namespace Constraint

/-- The format of e-mail addresses. -/
def emailFormat : String := "idn-email"

/-- The keyword that bounds the size of a shape from below. -/
def minCount? : Shape → Option Keywords.Count
  | .string => some .minLength
  | .array => some .minItems
  | .map => some .minProperties
  | _ => none

/-- The keyword that bounds the size of a shape from above. -/
def maxCount? : Shape → Option Keywords.Count
  | .string => some .maxLength
  | .array => some .maxItems
  | .map => some .maxProperties
  | _ => none

/-- A contribution to a count, if the shape has one. -/
def counting (keyword? : Option Keywords.Count) (value : Nat) : Effect :=
  match keyword? with
  | some keyword => .contributes [.count keyword value]
  | none => .inapplicable

/-- Contributions where the condition holds. -/
def applied (condition : Bool) (contributions : List Contribution) : Effect :=
  if condition then .contributes contributions else .inapplicable

/-- The contributions of `digits`: both exclusive bounds, and the step of the last place. -/
def digitsEffect (integer fraction : Nat) : Effect :=
  if maxDigits < integer ∨ maxDigits < fraction then .inapplicable
  else
    match Json.Number.powerOfTen? integer with
    | none => .inapplicable
    | some limit =>
      .contributes
        ([.bound .exclusiveMaximum limit, .bound .exclusiveMinimum limit.negate] ++
          if fraction = 0 then []
          else ((Json.Number.decimalStep? fraction).map Contribution.step).toList)

/-- What a constraint does to a value of a shape. -/
def effect (shape : Shape) : Constraint → Effect
  | notNull => .contributes []
  | null => .contributes [.nullOnly]
  | unknown name => .unmapped name
  | notBlank => if shape = .string then counting (minCount? shape) 1 else .inapplicable
  | notEmpty => counting (minCount? shape) 1
  | size least greatest =>
    match minCount? shape, maxCount? shape with
    | some minKeyword, some maxKeyword =>
      .contributes
        ((least.map (Contribution.count minKeyword)).toList ++
          (greatest.map (Contribution.count maxKeyword)).toList)
    | _, _ => .inapplicable
  | min value => applied shape.isNumeric [.bound .minimum (.int value)]
  | max value => applied shape.isNumeric [.bound .maximum (.int value)]
  | decimalMin value inclusive =>
    applied shape.isNumeric [.bound (if inclusive then .minimum else .exclusiveMinimum) value]
  | decimalMax value inclusive =>
    applied shape.isNumeric [.bound (if inclusive then .maximum else .exclusiveMaximum) value]
  | positive => applied shape.isNumeric [.bound .exclusiveMinimum (.int 0)]
  | positiveOrZero => applied shape.isNumeric [.bound .minimum (.int 0)]
  | negative => applied shape.isNumeric [.bound .exclusiveMaximum (.int 0)]
  | negativeOrZero => applied shape.isNumeric [.bound .maximum (.int 0)]
  | digits integer fraction =>
    if shape.isNumeric then digitsEffect integer fraction else .inapplicable
  | pattern regexp => applied (shape = .string) [.pattern regexp]
  | email regexp =>
    applied (shape = .string) (.format emailFormat :: (regexp.map Contribution.pattern).toList)
  | assertTrue => applied (shape = .boolean) [.constant true]
  | assertFalse => applied (shape = .boolean) [.constant false]

end Constraint

/-- The keywords gathered from constraints, and what was found on the way. -/
structure Mapping where
  keywords : Keywords := {}
  /-- Whether null is the only value. -/
  nullOnly : Bool := false
  /-- Which kinds have contributed to which bounds. -/
  contributed : List (String × String) := []
  /-- The findings, in the order they were made. -/
  findings : List (DiagnosticKind × String) := []

namespace Mapping

/-- Adds a finding. -/
def report (m : Mapping) (kind : DiagnosticKind) (message : String) : Mapping :=
  { m with findings := m.findings ++ [(kind, message)] }

/-- Notes that a kind contributes to a bound; a second time is a conflict. -/
def note (m : Mapping) (keyword kind : String) : Mapping :=
  if m.contributed.contains (keyword, kind) then
    m.report .constraintConflict
      ("'" ++ kind ++ "' declared more than once for '" ++ keyword ++
        "'; the tighter bound is kept")
  else { m with contributed := m.contributed ++ [(keyword, kind)] }

/-- Reports a later value of a keyword that keeps its first. -/
def keepFirst (m : Mapping) (keyword kind : String) : Mapping :=
  m.report .constraintConflict
    ("'" ++ kind ++ "' sets '" ++ keyword ++ "' again; the first declaration is kept")

/-- Whether a new value for a bound is tighter than the present one. -/
def isTighter (isLower : Bool) (order : Ordering) : Bool :=
  if isLower then order == .gt else order == .lt

/-- A value for a count, kept if it is tighter. -/
def tightenCount (k : Keywords) (keyword : Keywords.Count) (value : Nat) : Keywords :=
  match k.count keyword with
  | none => k.setCount value keyword
  | some current =>
    if isTighter keyword.isLower (Ord.compare value current) then k.setCount value keyword else k

/-- A value for a numeric bound, kept if it is tighter. -/
def tightenBound (k : Keywords) (keyword : Keywords.Bound) (value : Json.Number) : Keywords :=
  match k.bound keyword with
  | none => k.setBound value keyword
  | some current =>
    if isTighter keyword.isLower (value.compare current) then k.setBound value keyword else k

/-- One contribution of a constraint of some kind. -/
def contribute (kind : String) (m : Mapping) : Contribution → Mapping
  | .count keyword value =>
    let m := m.note keyword.name kind
    { m with keywords := tightenCount m.keywords keyword value }
  | .bound keyword value =>
    let m := m.note keyword.name kind
    { m with keywords := tightenBound m.keywords keyword value }
  | .pattern regexp =>
    match m.keywords.pattern with
    | none => { m with keywords := { m.keywords with pattern := some regexp } }
    | some first => if first = regexp then m else m.keepFirst "pattern" kind
  | .format name => { m with keywords := { m.keywords with format := some name } }
  | .constant value =>
    if m.keywords.constant.isSome then m.keepFirst "const" kind
    else { m with keywords := { m.keywords with constant := some (.bool value) } }
  | .step value =>
    if m.keywords.multipleOf.isSome then m.keepFirst "multipleOf" kind
    else { m with keywords := { m.keywords with multipleOf := some value } }
  | .nullOnly => { m with nullOnly := true }

/-- One constraint on a value of a shape. -/
def apply (shape : Shape) (m : Mapping) (constraint : Constraint) : Mapping :=
  match constraint.effect shape with
  | .contributes contributions => contributions.foldl (contribute constraint.kind) m
  | .inapplicable =>
    m.report .inapplicableConstraint
      ("'" ++ constraint.kind ++ "' does not apply to " ++ shape.label ++ " values")
  | .unmapped name =>
    m.report .unknownConstraint ("constraint '" ++ name ++ "' has no schema mapping")

/-- The constraints on a value of a shape, one after another. -/
def ofConstraints (shape : Shape) (constraints : List Constraint) : Mapping :=
  constraints.foldl (apply shape) {}

/-- The findings as diagnostics about a place. -/
def diagnostics (m : Mapping) (location : String) : List Diagnostic :=
  m.findings.map fun (kind, message) => ⟨kind, location, message⟩

end Mapping

end SchemaCompiler
