import SchemaCompiler.BaseUri
import SchemaCompiler.CompilationUnit
import SchemaCompiler.Path

/-!
# Configuration

The settings of a run. A unit declares them at most once; without a declaration there is no base
URI, so documents cannot be identified and none can be generated.
-/

namespace SchemaCompiler

/-- The settings of a run. -/
structure Configuration where
  baseUri : Option BaseUri := none
  /-- The directory of the documents, below the output directory. -/
  outputLocation : String := "schemas"
  title : TitlePolicy := .typeName
  description : DescriptionPolicy := .documentation
  nullInclusion : NullPolicy := .accepted
  /-- Whether bytes are written as arrays of numbers. -/
  binaryAsArray : Bool := false
  draft : Draft := .draft202012
  /-- Whether types that accept any value are allowed. -/
  allowAny : Bool := false
  /-- Whether every property that is always written is required. -/
  strictMode : Bool := false

namespace Configuration

/-- Why settings cannot be used. -/
inductive Fault where
  | baseRequired
  | badBase (value : String) (fault : Uri.Fault)
  | locationEscapes (location : String)
  | noBase
deriving DecidableEq, Repr

/-- The fault in words. -/
def Fault.message : Fault → String
  | baseRequired => "base_uri is required when a configuration is declared"
  | badBase value fault => "invalid base URI '" ++ value ++ "': " ++ fault.message
  | locationEscapes location =>
    "output_location '" ++ location ++ "' must be a relative path without '..'"
  | noBase => "no base_uri configured; declare a configuration block with an absolute base_uri"

/-- The settings of a declaration. -/
def ofDeclaration (d : ConfigurationDeclaration) : Except Fault Configuration := do
  let some value := d.baseUri | throw .baseRequired
  let base ← (BaseUri.parse value).mapError (.badBase value)
  let defaults : Configuration := {}
  let location := d.outputLocation.getD defaults.outputLocation
  if !Path.staysInside location then throw (.locationEscapes location)
  return {
    baseUri := some base
    outputLocation := location
    title := d.title.getD defaults.title
    description := d.description.getD defaults.description
    nullInclusion := d.nullInclusion.getD defaults.nullInclusion
    binaryAsArray := d.binaryAsArray.getD defaults.binaryAsArray
    draft := d.draft.getD defaults.draft
    allowAny := d.allowAny.getD defaults.allowAny
    strictMode := d.strictMode.getD defaults.strictMode }

end Configuration

end SchemaCompiler
