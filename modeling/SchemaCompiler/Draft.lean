/-!
# Drafts of JSON Schema

The two drafts that documents can be written in, and the three places where they differ.
-/

namespace SchemaCompiler

/-- A draft of JSON Schema. -/
inductive Draft where
  | draft202012
  | draft07
deriving DecidableEq, Repr

namespace Draft

/-- The name that declarations use. -/
def name : Draft → String
  | draft202012 => "2020-12"
  | draft07 => "draft-07"

/-- The identifier of the meta-schema, which documents give under `$schema`. -/
def metaSchema : Draft → String
  | draft202012 => "https://json-schema.org/draft/2020-12/schema"
  | draft07 => "http://json-schema.org/draft-07/schema#"

/-- The keyword that holds embedded definitions. -/
def definitionsKeyword : Draft → String
  | draft202012 => "$defs"
  | draft07 => "definitions"

/-- Whether keywords next to `$ref` count. -/
def refAllowsSiblings : Draft → Bool
  | draft202012 => true
  | draft07 => false

end Draft

end SchemaCompiler
