import SchemaCompiler.TypeExpr.Scalar

/-!
# Shapes of values

How a value looks to validation constraints: the shape decides which keywords a constraint sets.
-/

namespace SchemaCompiler

/-- How a value looks to validation constraints. -/
inductive Shape where
  | string
  | integer
  | number
  | boolean
  | array
  | map
  /-- A value of a declared type. -/
  | nominal
  | any
deriving DecidableEq, Repr

namespace Shape

/-- The shape of a scalar of a JSON type. -/
def ofPrimitive : Primitive → Shape
  | .string => string
  | .integer => integer
  | .number => number
  | .boolean => boolean

/-- Whether bounds on numbers apply. -/
def isNumeric : Shape → Bool
  | integer | number => true
  | _ => false

/-- The word that messages use. -/
def label : Shape → String
  | string => "string"
  | integer => "integer"
  | number => "number"
  | boolean => "boolean"
  | array => "array"
  | map => "map"
  | nominal => "object"
  | any => "untyped"

end Shape

end SchemaCompiler
