import SchemaCompiler.Configuration
import SchemaCompiler.Constraint.Keywords
import SchemaCompiler.Diagnostic
import SchemaCompiler.Schema.Node
import SchemaCompiler.TypeGraph.Basic

/-!
# Building schemas

The schema of a described type. Declared types that it names stay placeholders. A constraint on a
property, or on the elements or values of a collection, sets keywords where it applies and is
reported where it does not.
-/

namespace SchemaCompiler

namespace Configuration

variable (c : Configuration)

/-! ### Types -/

/-- The schema of bytes: a text in base 64, or numbers up to 255. -/
def bytesNode : Node :=
  if c.binaryAsArray then
    .array (.scalar .integer { minimum := some (.int 0), maximum := some (.int 255) }) {}
  else .scalar .string { contentEncoding := some "base64" }

/-- The schema of a scalar. -/
def scalarNode (kind : Scalar) : Node :=
  if kind = .bytes then c.bytesNode else .scalar kind.primitive { format := kind.format? }

/-- The schema of a type. -/
def typeNode : ResolvedType → Node
  | .scalar kind => c.scalarNode kind
  | .named name => .nominal name {}
  | .array items unique => .array (typeNode items) { uniqueItems := unique }
  | .map values => .object true [] [] [] (some (typeNode values)) {}
  | .nullable inner =>
    match c.nullInclusion with
    | .accepted => .nullable (typeNode inner)
    | .leftOut => typeNode inner
  | .any => .any {}

/-- The schema of a type depends on no other settings than those for null and for bytes. -/
theorem typeNode_congr {c c' : Configuration} (hnull : c'.nullInclusion = c.nullInclusion)
    (hbytes : c'.binaryAsArray = c.binaryAsArray) (type : ResolvedType) :
    c'.typeNode type = c.typeNode type := by
  induction type with
  | scalar kind => simp only [typeNode, scalarNode, bytesNode, hbytes]
  | named | any => rfl
  | array items unique ih => simp only [typeNode, ih]
  | map values ih => simp only [typeNode, ih]
  | nullable inner ih => simp only [typeNode, ih, hnull]

/-- The shape of a type's values for constraints; bytes may be written as arrays. -/
def shapeOf (type : ResolvedType) : Shape :=
  if c.binaryAsArray ∧ type.nonNull = .scalar .bytes then .array else type.shape

/-! ### Constraints -/

/-- Applies the keywords of constraints to a schema; where they leave null alone, it is null. -/
def constrain (mapping : Mapping) (node : Node) : Node :=
  if mapping.nullOnly then .null {} else node.merge mapping.keywords

/-- Changes the schema of the elements of an array or of the values of a map. -/
def mapItems (f : Node → Node) : Node → Node
  | .array items k => .array (f items) k
  | .object typed allOf properties required (some values) k =>
    .object typed allOf properties required (some (f values)) k
  | node => node

/-- The type of the elements or values of a collection, and what they are called. -/
def itemType? : ResolvedType → Option (String × ResolvedType)
  | .array items _ => some ("items", items)
  | .map values => some ("values", values)
  | _ => none

/-- The constraints on the value of a property. -/
def valueMapping (p : PropertyDescription) : Mapping :=
  .ofConstraints (c.shapeOf p.type) p.constraints

/-- The constraints on the elements or values of a property. -/
def itemMapping (p : PropertyDescription) (item : ResolvedType) : Mapping :=
  .ofConstraints (c.shapeOf item) p.itemConstraints

/-- Applies the constraints on elements or values. -/
def constrainItems (p : PropertyDescription) (node : Node) : Node :=
  match itemType? p.type.nonNull with
  | some (_, item) => node.mapValue (mapItems (constrain (c.itemMapping p item)))
  | none => node

/-- The findings about constraints on elements or values. -/
def itemFindings (location : String) (p : PropertyDescription) : List Diagnostic :=
  match itemType? p.type.nonNull with
  | some (step, item) => (c.itemMapping p item).diagnostics (location ++ "." ++ step)
  | none =>
    p.itemConstraints.map fun constraint =>
      ⟨.inapplicableConstraint, location,
        "item constraint '" ++ constraint.kind ++
          "' declared on a value that is not a collection"⟩

/-! ### Properties -/

/-- A text of documentation, if documentation is kept. -/
def documentation (text : Option String) : Option String :=
  match c.description with
  | .documentation => text
  | .undescribed => none

/-- The annotations of a property. -/
def propertyAnnotations (p : PropertyDescription) : Keywords where
  description := c.documentation p.description
  defaultValue := p.defaultValue
  deprecated := p.deprecated
  readOnly := p.readOnly
  writeOnly := p.writeOnly

/-- The schema of a property. -/
def propertyNode (p : PropertyDescription) : Node :=
  let mapping := c.valueMapping p
  let node :=
    if mapping.nullOnly then .null {}
    else c.constrainItems p ((c.typeNode p.type).merge mapping.keywords)
  node.merge (c.propertyAnnotations p)

/-- The findings about the constraints of a property. -/
def propertyFindings (owner : TypeName) (p : PropertyDescription) : List Diagnostic :=
  let location := owner.qualified ++ "." ++ p.name
  let mapping := c.valueMapping p
  mapping.diagnostics location ++ if mapping.nullOnly then [] else c.itemFindings location p

/-- Whether objects have to have a property. One that is left out where it is null is never
required if it can be null. -/
def requires (p : PropertyDescription) : Bool :=
  p.isRequired c.strictMode && !(p.nullable && c.nullInclusion = .leftOut)

/-! ### Declared types -/

/-- The title and description of a declared type. -/
def typeAnnotations (t : TypeDescription) : Keywords where
  title :=
    t.title <|>
      match c.title with
      | .typeName => some t.name.chain
      | .untitled => none
  description := c.documentation t.description

/-- What a union offers for a variant: its type, with the tag under the discriminator. -/
def variantNode (discriminator : String) (v : UnionVariant) : Node :=
  .object false [.nominal v.target {}]
    [(discriminator, .any { constant := some (.string v.tag) })] [discriminator] none {}

/-- The schema of a declared type. -/
def build (t : TypeDescription) : Node :=
  let annotations := c.typeAnnotations t
  match t.kind with
  | .object properties additional =>
    .object true [] (properties.map fun p => (p.name, c.propertyNode p))
      ((properties.filter c.requires).map (·.name)) (additional.map c.typeNode) annotations
  | .enum values => .enum values annotations
  | .union discriminator variants => .oneOf (variants.map (variantNode discriminator)) annotations

/-- The findings about the constraints in a declared type. -/
def buildFindings (t : TypeDescription) : List Diagnostic :=
  t.properties.flatMap (c.propertyFindings t.name)

end Configuration

end SchemaCompiler
