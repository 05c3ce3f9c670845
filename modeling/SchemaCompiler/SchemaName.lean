import SchemaCompiler.Text.Blank

/-!
# Schema names

The name of a schema is a segment of its identifier and the stem of its file, so only ASCII letters,
digits, `.`, `_` and `-` may stand in it, and it does not begin with a point.
-/

namespace SchemaCompiler.SchemaName

/-- What the name of every schema file ends in. -/
def fileSuffix : String := ".schema.json"

/-- Whether a character may stand in a schema name. -/
def allows (c : Char) : Bool :=
  Text.isAsciiAlphanumeric c || c == '.' || c == '_' || c == '-'

/-- Whether a text can name a schema. -/
def isValid (name : String) : Bool :=
  match name.toList with
  | [] => false
  | '.' :: _ => false
  | cs => cs.all allows

/-- The file that a schema is published in. -/
def fileName (name : String) : String := name ++ fileSuffix

end SchemaCompiler.SchemaName
