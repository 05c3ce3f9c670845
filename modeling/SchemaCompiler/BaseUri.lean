import SchemaCompiler.CanonicalId
import SchemaCompiler.SchemaName
import SchemaCompiler.Uri.Basic

/-!
# Base URIs

The absolute URI under which the identifiers of schemas are placed. It is kept in canonical text
without slashes at the end.
-/

namespace SchemaCompiler

/-- The absolute URI under which schemas are placed. -/
structure BaseUri where
  text : String
deriving DecidableEq, Repr

namespace BaseUri

/-- The text without slashes at its end. -/
def dropSlashes (cs : List Char) : List Char := (cs.reverse.dropWhile (· == '/')).reverse

/-- The base that a text gives: a hierarchical URI without query and fragment. White space around
it does not count. -/
def parse (value : String) : Except Uri.Fault BaseUri := do
  let uri ← Uri.parse (Text.trimBoth Text.isBlank value.toList)
  if !uri.hierarchical then throw .opaquePath
  if uri.hasSuffix then throw .queryOrFragment
  return ⟨String.ofList (dropSlashes uri.text)⟩

/-- The identifier of the schema of a name. -/
def identifier (base : BaseUri) (schemaName : String) : CanonicalId :=
  ⟨base.text ++ "/" ++ SchemaName.fileName schemaName⟩

end BaseUri

end SchemaCompiler
