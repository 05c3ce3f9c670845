import SchemaCompiler.Json.Basic

/-!
# Diagnostics

Findings that do not stop generation. `Diagnostic.snapshot` is what a run reports: every finding
once, ordered by kind, place and message.
-/

namespace SchemaCompiler

/-- What a finding is about. -/
inductive DiagnosticKind where
  /-- Two constraints meet on a keyword. -/
  | constraintConflict
  /-- A constraint that no keyword expresses. -/
  | unknownConstraint
  /-- A constraint on a value that it cannot restrict. -/
  | inapplicableConstraint
  /-- A filter that names no property. -/
  | unresolvedFilter
deriving DecidableEq, Repr

/-- A finding that does not stop generation. -/
structure Diagnostic where
  kind : DiagnosticKind
  /-- The type or property that the finding is about. -/
  location : String
  message : String
deriving DecidableEq, Repr

namespace DiagnosticKind

/-- The place of a kind in the order of reports. -/
def rank : DiagnosticKind → Nat
  | constraintConflict => 0
  | unknownConstraint => 1
  | inapplicableConstraint => 2
  | unresolvedFilter => 3

/-- The kind as reports print it. -/
def label : DiagnosticKind → String
  | constraintConflict => "constraint-conflict"
  | unknownConstraint => "unknown-constraint"
  | inapplicableConstraint => "inapplicable-constraint"
  | unresolvedFilter => "unresolved-filter"

/-- The kind as JSON reports name it. -/
def jsonName : DiagnosticKind → String
  | constraintConflict => "constraint_conflict"
  | unknownConstraint => "unknown_constraint"
  | inapplicableConstraint => "inapplicable_constraint"
  | unresolvedFilter => "unresolved_filter"

/-- The kind of a printed label. -/
def ofLabel? (label : String) : Option DiagnosticKind :=
  [constraintConflict, unknownConstraint, inapplicableConstraint, unresolvedFilter].find?
    (·.label == label)

end DiagnosticKind

namespace Diagnostic

/-- The order of reports: by kind, then place, then message, texts by code points. -/
def compare (a b : Diagnostic) : Ordering :=
  (Ord.compare a.kind.rank b.kind.rank).then
    ((Ord.compare a.location b.location).then (Ord.compare a.message b.message))

/-- Adds a finding to an ordered list unless it is there. -/
def insert (d : Diagnostic) : List Diagnostic → List Diagnostic
  | [] => [d]
  | e :: rest =>
    match compare d e with
    | .lt => d :: e :: rest
    | .eq => e :: rest
    | .gt => e :: insert d rest

/-- The findings in order, each once. -/
def snapshot (found : List Diagnostic) : List Diagnostic := found.foldr insert []

/-- The finding on one line. -/
def text (d : Diagnostic) : String :=
  "[" ++ d.kind.label ++ "] " ++ d.location ++ ": " ++ d.message

/-- The finding as a JSON object. -/
def toJson (d : Diagnostic) : Json :=
  .object
    [("kind", .string d.kind.jsonName), ("location", .string d.location),
      ("message", .string d.message)]

theorem mem_insert {d e : Diagnostic} {found : List Diagnostic}
    (eq_of : ∀ x ∈ found, compare d x = .eq → d = x) :
    e ∈ insert d found ↔ e = d ∨ e ∈ found := by
  induction found with
  | nil => simp [insert]
  | cons x rest ih =>
    simp only [insert]
    split
    · simp
    · next h =>
      have := eq_of x (by simp) h
      subst this
      simp
    · have := ih fun y hy => eq_of y (by simp [hy])
      simp only [List.mem_cons, this]
      constructor <;> rintro (h | h | h) <;> simp [h]

end Diagnostic

end SchemaCompiler
