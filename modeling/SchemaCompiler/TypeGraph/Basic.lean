import SchemaCompiler.Declaration.Basic
import SchemaCompiler.Shape
import SchemaCompiler.TypeName

/-!
# Type graphs

What is known of declared types once every name in them is looked up: resolved types, described
properties and described types. A `TypeGraph` lists the described types that a root leads to, the
root first; types refer to each other by name, so cycles need no care.
-/

namespace SchemaCompiler

/-- A type whose names are looked up. -/
inductive ResolvedType where
  | scalar (kind : Scalar)
  | named (name : TypeName)
  /-- A list, or a set if its items are unique. -/
  | array (items : ResolvedType) (unique : Bool)
  | map (values : ResolvedType)
  | nullable (inner : ResolvedType)
  | any
deriving DecidableEq, Repr

namespace ResolvedType

/-- Whether null is a value. -/
def isNullable : ResolvedType → Bool
  | nullable _ => true
  | _ => false

/-- The type without null. -/
def nonNull : ResolvedType → ResolvedType
  | nullable inner => inner.nonNull
  | type => type

/-- The shape of the values other than null. -/
def shape : ResolvedType → Shape
  | scalar kind => Shape.ofPrimitive kind.primitive
  | named _ => .nominal
  | array _ _ => .array
  | map _ => .map
  | any => .any
  | nullable inner => inner.shape

/-- The declared types that a type names, in order. -/
def mentions : ResolvedType → List TypeName
  | named name => [name]
  | array items _ => items.mentions
  | map values => values.mentions
  | nullable inner => inner.mentions
  | scalar _ | any => []

@[simp] theorem mentions_nonNull (type : ResolvedType) : type.nonNull.mentions = type.mentions := by
  induction type <;> simp_all [nonNull, mentions]

@[simp] theorem isNullable_nonNull (type : ResolvedType) : type.nonNull.isNullable = false := by
  induction type <;> simp_all [nonNull, isNullable]

@[simp] theorem shape_nonNull (type : ResolvedType) : type.nonNull.shape = type.shape := by
  induction type <;> simp_all [nonNull, shape]

end ResolvedType

/-- Whether values that are present may be left out. -/
def Inclusion.omitsPresentValues : Inclusion → Bool
  | nonEmpty | nonDefault => true
  | always | nonNull | nonAbsent => false

/-- A property of an object type. -/
structure PropertyDescription where
  /-- The name in JSON. -/
  name : String
  declaredName : String
  type : ResolvedType
  constraints : List Constraint
  itemConstraints : List Constraint
  inclusion : Inclusion
  description : Option String
  deprecated : Bool
  readOnly : Bool
  writeOnly : Bool
  defaultValue : Option Json

namespace PropertyDescription

/-- Whether the property can be null. -/
def nullable (p : PropertyDescription) : Bool := p.type.isNullable

/-- Whether objects have to have the property. In strict mode they do if it is always written,
otherwise if it is neither null nor left out. -/
def isRequired (p : PropertyDescription) (strict : Bool) : Bool :=
  if strict then p.inclusion == .always
  else !p.nullable && !p.inclusion.omitsPresentValues

end PropertyDescription

/-- A variant of a union. -/
structure UnionVariant where
  tag : String
  target : TypeName
deriving DecidableEq, Repr

/-- What a declared type is. -/
inductive TypeKind where
  | object (properties : List PropertyDescription) (additional : Option ResolvedType)
  | enum (values : List String)
  | union (discriminator : String) (variants : List UnionVariant)

/-- The declared types that a kind names, in order. -/
def TypeKind.mentions : TypeKind → List TypeName
  | object properties additional =>
    properties.flatMap (·.type.mentions) ++ additional.toList.flatMap ResolvedType.mentions
  | enum _ => []
  | union _ variants => variants.map (·.target)

/-- A declared type. -/
structure TypeDescription where
  name : TypeName
  schemaName : String
  kind : TypeKind
  /-- The declared title. -/
  title : Option String
  description : Option String
  /-- Whether the type gets a document of its own. -/
  isRoot : Bool

namespace TypeDescription

/-- The declared types that a type names, in order. -/
def mentions (t : TypeDescription) : List TypeName := t.kind.mentions

/-- The properties of an object type. -/
def properties (t : TypeDescription) : List PropertyDescription :=
  match t.kind with
  | .object properties _ => properties
  | _ => []

end TypeDescription

/-- The described types that a root leads to, in the order of discovery. -/
structure TypeGraph where
  types : List TypeDescription := []

namespace TypeGraph

/-- The type of a name. -/
def get? (graph : TypeGraph) (name : TypeName) : Option TypeDescription :=
  graph.types.find? fun t => t.name == name

/-- Whether a type is described. -/
def contains (graph : TypeGraph) (name : TypeName) : Bool :=
  graph.types.any fun t => t.name == name

/-- Adds a type at the end. -/
def add (graph : TypeGraph) (t : TypeDescription) : TypeGraph := ⟨graph.types ++ [t]⟩

end TypeGraph

end SchemaCompiler
