/-!
# Scalar types

The scalar types that declarations can name, their keywords, and the JSON type and format each is
described by.
-/

namespace SchemaCompiler

/-- The JSON type of a scalar value. -/
inductive Primitive where
  | string
  | integer
  | number
  | boolean
deriving DecidableEq, Repr

/-- The word that schemas use for a JSON type. -/
def Primitive.text : Primitive → String
  | string => "string"
  | integer => "integer"
  | number => "number"
  | boolean => "boolean"

/-- A scalar type of the declaration language. -/
inductive Scalar where
  | string
  | boolean
  | byte
  | short
  | int
  | long
  | bigInteger
  | float
  | double
  | decimal
  | uuid
  | dateTime
  | date
  | uri
  | bytes
deriving DecidableEq, Repr

namespace Scalar

/-- The scalar of a keyword; several keywords have a second spelling. -/
def ofKeyword? : String → Option Scalar
  | "string" | "char" => some string
  | "boolean" | "bool" => some boolean
  | "byte" => some byte
  | "short" => some short
  | "int" => some int
  | "long" => some long
  | "integer" | "biginteger" => some bigInteger
  | "float" => some float
  | "double" => some double
  | "decimal" | "number" => some decimal
  | "uuid" => some uuid
  | "date-time" | "instant" | "datetime" => some dateTime
  | "date" => some date
  | "uri" => some uri
  | "bytes" => some bytes
  | _ => none

/-- The canonical keyword. -/
def keyword : Scalar → String
  | string => "string"
  | boolean => "boolean"
  | byte => "byte"
  | short => "short"
  | int => "int"
  | long => "long"
  | bigInteger => "integer"
  | float => "float"
  | double => "double"
  | decimal => "decimal"
  | uuid => "uuid"
  | dateTime => "date-time"
  | date => "date"
  | uri => "uri"
  | bytes => "bytes"

/-- The JSON type of the values. -/
def primitive : Scalar → Primitive
  | string | uuid | dateTime | date | uri | bytes => .string
  | boolean => .boolean
  | byte | short | int | long | bigInteger => .integer
  | float | double | decimal => .number

/-- The format annotation, for the scalars that have one. -/
def format? : Scalar → Option String
  | uuid => some "uuid"
  | dateTime => some "date-time"
  | date => some "date"
  | uri => some "uri"
  | _ => none

@[simp] theorem ofKeyword?_keyword (s : Scalar) : ofKeyword? s.keyword = some s := by
  cases s <;> rfl

end Scalar

end SchemaCompiler
