import SchemaCompiler.Json.Number

/-!
# Validation constraints

The constraints that a declaration can put on a property or on the elements of a collection.
-/

namespace SchemaCompiler

/-- A validation constraint with its parameters. -/
inductive Constraint where
  /-- A character other than white space. -/
  | notBlank
  /-- At least one character, element or key. -/
  | notEmpty
  | notNull
  /-- Nothing but null. -/
  | null
  /-- Bounds on the number of characters, elements or keys. -/
  | size (min max : Option Nat)
  | min (value : Int)
  | max (value : Int)
  | decimalMin (value : Json.Number) (inclusive : Bool)
  | decimalMax (value : Json.Number) (inclusive : Bool)
  | positive
  | positiveOrZero
  | negative
  | negativeOrZero
  | pattern (regexp : String)
  | email (regexp : Option String)
  /-- Bounds on the digits before and after the decimal point. -/
  | digits (integer fraction : Nat)
  | assertTrue
  | assertFalse
  /-- A kind that no schema keyword expresses. -/
  | unknown (name : String)
deriving DecidableEq

namespace Constraint

/-- The most digits that `digits` can ask for: `10 ^ 308` is still a finite double. -/
def maxDigits : Nat := 308

/-- The kind as declarations write it. -/
def kind : Constraint → String
  | notBlank => "not_blank"
  | notEmpty => "not_empty"
  | notNull => "not_null"
  | null => "null"
  | size _ _ => "size"
  | min _ => "min"
  | max _ => "max"
  | decimalMin _ _ => "decimal_min"
  | decimalMax _ _ => "decimal_max"
  | positive => "positive"
  | positiveOrZero => "positive_or_zero"
  | negative => "negative"
  | negativeOrZero => "negative_or_zero"
  | pattern _ => "pattern"
  | email _ => "email"
  | digits _ _ => "digits"
  | assertTrue => "assert_true"
  | assertFalse => "assert_false"
  | unknown name => name

end Constraint

end SchemaCompiler
