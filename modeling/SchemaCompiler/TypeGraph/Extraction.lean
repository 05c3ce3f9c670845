import SchemaCompiler.Reported
import SchemaCompiler.TypeGraph.Basic

/-!
# Extraction of type graphs

`TypeGraph.extract` describes a root and every declared type that it leads to, breadth first. A
property that is unwrapped is replaced by the properties of its type, which are looked up where
that type is declared. Filters that match no property are reported.
-/

namespace SchemaCompiler

/-- The declarations that types are looked up in, and whether types may accept any value. -/
structure TypeSource where
  unit : CompilationUnit
  allowAny : Bool

namespace TypeSource

variable (source : TypeSource)

/-! ### Types of properties -/

/-- Fails at a place in a type. -/
def fail {α : Type} (owner : TypeName) (path : String) (cause : Unsupported) :
    Except Failure α :=
  .error (.unsupported owner.qualified path cause)

/-- Whether a type can be the key of a map. -/
def isKey : TypeExpr → Bool
  | .scalar .bytes => false
  | .scalar kind => kind.primitive = .string
  | _ => false

/-- Whether a declared type accepts any value. -/
def isOpen (t : DeclaredType) : Bool :=
  t.declaration.kind = .interface && t.declaration.variants.isEmpty

/-- A type with its names looked up inside another type. -/
def resolve (owner : TypeName) : String → TypeExpr → Except Failure ResolvedType
  | _, .scalar kind => .ok (.scalar kind)
  | path, .any => if source.allowAny then .ok .any else fail owner path .anyNotAllowed
  | path, .named written =>
    match source.unit.resolve? owner written with
    | none => fail owner path (.undeclaredName written)
    | some t =>
      if !isOpen t then .ok (.named t.name)
      else if source.allowAny then .ok .any
      else fail owner path (.openType t.name)
  | path, .list items => do return .array (← resolve owner (path ++ ".items") items) false
  | path, .set items => do return .array (← resolve owner (path ++ ".items") items) true
  | path, .map key values =>
    if isKey key then do return .map (← resolve owner (path ++ ".values") values)
    else fail owner path (.mapKey key)
  | path, .nullable inner => do return .nullable (← resolve owner path inner)

/-! ### Properties -/

/-- Whether the filters of a type keep a property. -/
def keeps (d : TypeDeclaration) (jsonName : String) : Bool :=
  !d.ignoreProperties.contains jsonName &&
    match d.includeProperties with
    | some kept => kept.contains jsonName
    | none => true

/-- The properties of a type that are not left out. -/
def keptProperties (d : TypeDeclaration) : List PropertyDeclaration :=
  d.properties.filter fun p => !p.ignore && keeps d p.jsonName

/-- The description of a property; under `not_null` it is not nullable. -/
def describeProperty (owner : TypeName) (p : PropertyDeclaration) :
    Except Failure PropertyDescription := do
  let type ← source.resolve owner p.jsonName p.type
  return {
    name := p.jsonName
    declaredName := p.name
    type := if p.constraints.contains .notNull then type.nonNull else type
    constraints := p.constraints
    itemConstraints := p.itemConstraints
    inclusion := p.inclusion
    description := p.description
    deprecated := p.deprecated
    readOnly := p.readOnly
    writeOnly := p.writeOnly
    defaultValue := p.defaultValue }

/-- The object type that stands in place of a property, unless it is being unwrapped already. -/
def unwrapTarget (unwrapping : List TypeName) (owner : TypeName) (p : PropertyDeclaration) :
    Except Failure DeclaredType :=
  match p.type with
  | .named written =>
    match source.unit.resolve? owner written with
    | none => fail owner p.jsonName (.undeclaredName written)
    | some t =>
      if t.declaration.kind ≠ .object then fail owner p.jsonName .notUnwrappable
      else if unwrapping.contains t.name then fail owner p.jsonName (.unwrapsItself t.name)
      else .ok t
  | _ => fail owner p.jsonName .notUnwrappable

/-- Adds a property of a type to those collected before; `unwrap` adds the properties of the type
that stands in its place. -/
def addProperty (unwrapping : List TypeName)
    (unwrap : DeclaredType → List PropertyDescription → Except Failure (List PropertyDescription))
    (owner : TypeName) (collected : List PropertyDescription) (p : PropertyDeclaration) :
    Except Failure (List PropertyDescription) := do
  if p.unwrapped then
    unwrap (← source.unwrapTarget unwrapping owner p) collected
  else if collected.any (·.name == p.jsonName) then
    fail owner p.jsonName .repeatedProperty
  else
    return collected ++ [← source.describeProperty owner p]

/-- Adds the properties of a type to those collected before. The types being unwrapped are
distinct, so a depth of as many types as the unit has is never used up. -/
def addProperties : Nat → List TypeName → DeclaredType → List PropertyDescription →
    Except Failure (List PropertyDescription)
  | 0, _, _, collected => .ok collected
  | depth + 1, unwrapping, t, collected =>
    (keptProperties t.declaration).foldlM
      (source.addProperty unwrapping
        (fun target => addProperties depth (unwrapping ++ [target.name]) target) t.name)
      collected

/-- The properties of an object type, unwrapped ones replaced. -/
def propertiesOf (t : DeclaredType) : Except Failure (List PropertyDescription) :=
  source.addProperties (source.unit.types.length + 1) [t.name] t []

/-- The findings about filters that match no property. -/
def filterFindings (t : DeclaredType) : List Diagnostic :=
  let known := t.declaration.properties.map (·.jsonName)
  let filters := t.declaration.ignoreProperties ++ t.declaration.includeProperties.getD []
  (filters.filter fun name => !known.contains name).map fun name =>
    ⟨.unresolvedFilter, t.name.qualified, "property filter '" ++ name ++ "' matches no property"⟩

/-! ### Types -/

/-- The discriminator of unions that declare none. -/
def defaultDiscriminator : String := "type"

/-- A variant of a union. -/
def describeVariant (owner : TypeName) (v : VariantDeclaration) :
    Except Failure UnionVariant :=
  let path := "variants." ++ v.target
  match source.unit.resolve? owner v.target with
  | none => fail owner path (.undeclaredName v.target)
  | some t =>
    if t.declaration.kind ≠ .object then fail owner path .variantNotObject
    else .ok ⟨v.tag.getD t.name.simple, t.name⟩

/-- The additional properties of a type, if it declares them. -/
def additionalOf (t : DeclaredType) : Except Failure (Option ResolvedType) :=
  match t.declaration.additionalProperties with
  | none => .ok none
  | some type => some <$> source.resolve t.name "additionalProperties" type

/-- What a declared type is. -/
def describeKind (t : DeclaredType) : Reported TypeKind := do
  match t.declaration.kind with
  | .object =>
    let properties ← .ofExcept (source.propertiesOf t)
    Reported.report (filterFindings t)
    let additional ← .ofExcept (source.additionalOf t)
    return .object properties additional
  | .enum =>
    if t.declaration.values.isEmpty then .ofExcept (fail t.name "" .noValues)
    else return .enum t.declaration.values
  | .union | .interface =>
    if t.declaration.variants.isEmpty then .ofExcept (fail t.name "" .noVariants)
    else
      let variants ← .ofExcept (t.declaration.variants.mapM (source.describeVariant t.name))
      return .union (t.declaration.discriminator.getD defaultDiscriminator) variants

/-- The schema name of a declared type. -/
def schemaNameOf (t : DeclaredType) : String :=
  (t.declaration.schema.bind (·.name)).getD t.name.chain

/-- The description of a declared type. -/
def describe (t : DeclaredType) : Reported TypeDescription := do
  if !SchemaName.isValid (schemaNameOf t) then
    .ofExcept (.error (.invalidSchemaName (schemaNameOf t)))
  else
    let kind ← source.describeKind t
    return {
      name := t.name
      schemaName := schemaNameOf t
      kind
      title := t.declaration.schema.bind (·.title)
      description := t.declaration.schema.bind (·.description) <|> t.declaration.description
      isRoot := t.isRoot }

/-! ### Graphs -/

/-- Describes pending types that the graph lacks, and those that they name after them. Each step
describes another declared type, so one step more than there are types is never used up. -/
def explore : Nat → List TypeName → TypeGraph → Reported TypeGraph
  | 0, _, graph => pure graph
  | steps + 1, pending, graph =>
    match pending.dropWhile graph.contains with
    | [] => pure graph
    | name :: rest =>
      match source.unit.lookup? name.qualified with
      | none => .ofExcept (fail name "" .notDeclared)
      | some t => do
        let described ← source.describe t
        explore steps (rest ++ described.mentions) (graph.add described)

/-- The graph of a root. -/
def extract (root : TypeName) : Reported TypeGraph :=
  source.explore (source.unit.types.length + 1) [root] {}

end TypeSource

end SchemaCompiler
