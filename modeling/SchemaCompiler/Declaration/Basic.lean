import SchemaCompiler.Constraint.Basic
import SchemaCompiler.Declaration.Word
import SchemaCompiler.Json.Basic
import SchemaCompiler.TypeExpr.Basic

/-!
# Declarations

What a declaration file says: the package, the types with their properties and variants, and the
settings of generation. Nothing is looked up yet.
-/

namespace SchemaCompiler

/-- The settings that a file declares for a whole run. -/
structure ConfigurationDeclaration where
  baseUri : Option String := none
  outputLocation : Option String := none
  title : Option TitlePolicy := none
  description : Option DescriptionPolicy := none
  nullInclusion : Option NullPolicy := none
  binaryAsArray : Option Bool := none
  draft : Option Draft := none
  allowAny : Option Bool := none
  strictMode : Option Bool := none

/-- The mark of a type that gets a document of its own. -/
structure SchemaAnnotation where
  title : Option String := none
  description : Option String := none
  /-- The schema name, where it is not that of the type. -/
  name : Option String := none

/-- A declared property. -/
structure PropertyDeclaration where
  name : String := ""
  type : TypeExpr := .any
  /-- The name in JSON, where it is another. -/
  rename : Option String := none
  /-- Whether the property is left out. -/
  ignore : Bool := false
  /-- Whether the properties of its type stand in its place. -/
  unwrapped : Bool := false
  inclusion : Inclusion := .always
  description : Option String := none
  constraints : List Constraint := []
  /-- Constraints on the elements or values. -/
  itemConstraints : List Constraint := []
  deprecated : Bool := false
  readOnly : Bool := false
  writeOnly : Bool := false
  defaultValue : Option Json := none

/-- The name in JSON. -/
def PropertyDeclaration.jsonName (p : PropertyDeclaration) : String := p.rename.getD p.name

/-- A declared variant of a union. -/
structure VariantDeclaration where
  /-- The name of its type, as written. -/
  target : String := ""
  tag : Option String := none

/-- A declared type. -/
structure TypeDeclaration where
  name : String := ""
  kind : DeclaredKind := .object
  /-- The mark of a root. -/
  schema : Option SchemaAnnotation := none
  description : Option String := none
  properties : List PropertyDeclaration := []
  /-- The texts of an enumeration. -/
  values : List String := []
  discriminator : Option String := none
  variants : List VariantDeclaration := []
  /-- The types declared inside this one. -/
  nested : List TypeDeclaration := []
  /-- The JSON names of properties to leave out. -/
  ignoreProperties : List String := []
  /-- The JSON names of the only properties to keep. -/
  includeProperties : Option (List String) := none
  /-- The type of the properties that are not declared. -/
  additionalProperties : Option TypeExpr := none

/-- What one file declares. -/
structure DeclarationFile where
  package : Option String := none
  configuration : Option ConfigurationDeclaration := none
  types : List TypeDeclaration := []

end SchemaCompiler
