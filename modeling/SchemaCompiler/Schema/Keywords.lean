import SchemaCompiler.Json.Basic

/-!
# Schema keywords

The annotations and assertions that any node of a schema can carry. They are written in a fixed
order in three parts: `head` before the structure of the node, `body` after it, and `tail` at the
end. `Keywords.merge` overlays one set on another.
-/

namespace SchemaCompiler

/-- Annotations and assertions on a schema node. -/
structure Keywords where
  title : Option String := none
  description : Option String := none
  format : Option String := none
  contentEncoding : Option String := none
  constant : Option Json := none
  pattern : Option String := none
  minLength : Option Nat := none
  maxLength : Option Nat := none
  minItems : Option Nat := none
  maxItems : Option Nat := none
  uniqueItems : Bool := false
  minimum : Option Json.Number := none
  exclusiveMinimum : Option Json.Number := none
  maximum : Option Json.Number := none
  exclusiveMaximum : Option Json.Number := none
  multipleOf : Option Json.Number := none
  minProperties : Option Nat := none
  maxProperties : Option Nat := none
  defaultValue : Option Json := none
  deprecated : Bool := false
  readOnly : Bool := false
  writeOnly : Bool := false

namespace Keywords

/-- No keywords. -/
def none : Keywords := {}

/-- Every keyword that `other` sets, and of all else those of `k`. -/
def merge (k other : Keywords) : Keywords where
  title := other.title <|> k.title
  description := other.description <|> k.description
  format := other.format <|> k.format
  contentEncoding := other.contentEncoding <|> k.contentEncoding
  constant := other.constant <|> k.constant
  pattern := other.pattern <|> k.pattern
  minLength := other.minLength <|> k.minLength
  maxLength := other.maxLength <|> k.maxLength
  minItems := other.minItems <|> k.minItems
  maxItems := other.maxItems <|> k.maxItems
  uniqueItems := other.uniqueItems || k.uniqueItems
  minimum := other.minimum <|> k.minimum
  exclusiveMinimum := other.exclusiveMinimum <|> k.exclusiveMinimum
  maximum := other.maximum <|> k.maximum
  exclusiveMaximum := other.exclusiveMaximum <|> k.exclusiveMaximum
  multipleOf := other.multipleOf <|> k.multipleOf
  minProperties := other.minProperties <|> k.minProperties
  maxProperties := other.maxProperties <|> k.maxProperties
  defaultValue := other.defaultValue <|> k.defaultValue
  deprecated := other.deprecated || k.deprecated
  readOnly := other.readOnly || k.readOnly
  writeOnly := other.writeOnly || k.writeOnly

/-- The keywords that describe and do not restrict. -/
def annotations (k : Keywords) : Keywords where
  title := k.title
  description := k.description
  defaultValue := k.defaultValue
  deprecated := k.deprecated
  readOnly := k.readOnly
  writeOnly := k.writeOnly

/-- The keywords that are no annotations. -/
def assertions (k : Keywords) : Keywords :=
  { k with
    title := .none
    description := .none
    defaultValue := .none
    deprecated := false
    readOnly := false
    writeOnly := false }

/-! ### Bounds by keyword -/

/-- A keyword that bounds a count. -/
inductive Count where
  | minLength
  | maxLength
  | minItems
  | maxItems
  | minProperties
  | maxProperties
deriving DecidableEq, Repr

/-- A keyword that bounds a number. -/
inductive Bound where
  | minimum
  | exclusiveMinimum
  | maximum
  | exclusiveMaximum
deriving DecidableEq, Repr

/-- The keyword as schemas write it. -/
def Count.name : Count → String
  | minLength => "minLength"
  | maxLength => "maxLength"
  | minItems => "minItems"
  | maxItems => "maxItems"
  | minProperties => "minProperties"
  | maxProperties => "maxProperties"

/-- Whether the keyword bounds from below. -/
def Count.isLower : Count → Bool
  | minLength | minItems | minProperties => true
  | maxLength | maxItems | maxProperties => false

/-- The keyword as schemas write it. -/
def Bound.name : Bound → String
  | minimum => "minimum"
  | exclusiveMinimum => "exclusiveMinimum"
  | maximum => "maximum"
  | exclusiveMaximum => "exclusiveMaximum"

/-- Whether the keyword bounds from below. -/
def Bound.isLower : Bound → Bool
  | minimum | exclusiveMinimum => true
  | maximum | exclusiveMaximum => false

/-- The value of a count keyword. -/
def count (k : Keywords) : Count → Option Nat
  | .minLength => k.minLength
  | .maxLength => k.maxLength
  | .minItems => k.minItems
  | .maxItems => k.maxItems
  | .minProperties => k.minProperties
  | .maxProperties => k.maxProperties

/-- Sets a count keyword. -/
def setCount (k : Keywords) (value : Nat) : Count → Keywords
  | .minLength => { k with minLength := some value }
  | .maxLength => { k with maxLength := some value }
  | .minItems => { k with minItems := some value }
  | .maxItems => { k with maxItems := some value }
  | .minProperties => { k with minProperties := some value }
  | .maxProperties => { k with maxProperties := some value }

/-- The value of a numeric bound. -/
def bound (k : Keywords) : Bound → Option Json.Number
  | .minimum => k.minimum
  | .exclusiveMinimum => k.exclusiveMinimum
  | .maximum => k.maximum
  | .exclusiveMaximum => k.exclusiveMaximum

/-- Sets a numeric bound. -/
def setBound (k : Keywords) (value : Json.Number) : Bound → Keywords
  | .minimum => { k with minimum := some value }
  | .exclusiveMinimum => { k with exclusiveMinimum := some value }
  | .maximum => { k with maximum := some value }
  | .exclusiveMaximum => { k with exclusiveMaximum := some value }

@[simp] theorem count_setCount (k : Keywords) (value : Nat) (c d : Count) :
    (k.setCount value c).count d = if c = d then some value else k.count d := by
  cases c <;> cases d <;> rfl

@[simp] theorem bound_setBound (k : Keywords) (value : Json.Number) (b d : Bound) :
    (k.setBound value b).bound d = if b = d then some value else k.bound d := by
  cases b <;> cases d <;> rfl

@[simp] theorem count_setBound (k : Keywords) (value : Json.Number) (b : Bound) (c : Count) :
    (k.setBound value b).count c = k.count c := by
  cases b <;> cases c <;> rfl

@[simp] theorem bound_setCount (k : Keywords) (value : Nat) (c : Count) (b : Bound) :
    (k.setCount value c).bound b = k.bound b := by
  cases b <;> cases c <;> rfl

/-! ### Written form -/

/-- A key and its value in an object. -/
abbrev Member := String × Json

/-- One member if there is a value. -/
def member (key : String) (value : Option Json) : List Member :=
  match value with
  | some v => [(key, v)]
  | .none => []

/-- One member with value true if the flag is set. -/
def flag (key : String) (set : Bool) : List Member := if set then [(key, .bool true)] else []

/-- What stands before the structure of the node. -/
def head (k : Keywords) : List Member :=
  member "title" (k.title.map .string) ++ member "description" (k.description.map .string)

/-- What stands after the structure of the node. -/
def body (k : Keywords) : List Member :=
  member "format" (k.format.map .string) ++
  member "contentEncoding" (k.contentEncoding.map .string) ++
  member "const" k.constant ++
  member "pattern" (k.pattern.map .string) ++
  member "minLength" (k.minLength.map .ofNat) ++
  member "maxLength" (k.maxLength.map .ofNat) ++
  member "minItems" (k.minItems.map .ofNat) ++
  member "maxItems" (k.maxItems.map .ofNat) ++
  flag "uniqueItems" k.uniqueItems ++
  member "minimum" (k.minimum.map .number) ++
  member "exclusiveMinimum" (k.exclusiveMinimum.map .number) ++
  member "maximum" (k.maximum.map .number) ++
  member "exclusiveMaximum" (k.exclusiveMaximum.map .number) ++
  member "multipleOf" (k.multipleOf.map .number) ++
  member "minProperties" (k.minProperties.map .ofNat) ++
  member "maxProperties" (k.maxProperties.map .ofNat)

/-- What stands at the end. -/
def tail (k : Keywords) : List Member :=
  member "default" k.defaultValue ++
  flag "deprecated" k.deprecated ++
  flag "readOnly" k.readOnly ++
  flag "writeOnly" k.writeOnly

/-- Whether no keyword is set. -/
def isEmpty (k : Keywords) : Bool := k.head.isEmpty && k.body.isEmpty && k.tail.isEmpty

/-- The keywords around the structure of their node. -/
def around (k : Keywords) (structural : List Member) : List Member :=
  k.head ++ structural ++ k.body ++ k.tail

end Keywords

end SchemaCompiler
