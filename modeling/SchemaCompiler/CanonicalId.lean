/-!
# Canonical identifiers

The absolute identifier of the schema of a declared type: the `$id` of its schema and the target of
every `$ref` to it.
-/

namespace SchemaCompiler

/-- The absolute identifier of a schema. -/
structure CanonicalId where
  uri : String
deriving DecidableEq, Repr

end SchemaCompiler
