import SchemaCompiler.Constraint.Reader
import SchemaCompiler.Text.Literal
import SchemaCompiler.TypeExpr.Parser
import SchemaCompiler.Yaml.Scalar

/-!
# Faults of declaration files

What is wrong in a declaration file, and the path from the top of the file to the place.
-/

namespace SchemaCompiler.Declaration

/-- A value of a wrong type. -/
inductive Found where
  | scalar (value : Yaml.Scalar)
  | sequence
  | mapping
  /-- A value of a local type. -/
  | tagged

/-- What is wrong. -/
inductive Problem where
  | invalidType (found : Found) (expected : String)
  | notNull (text : String)
  | unknownField (name : String) (known : List String)
  | repeatedField (name : String)
  | missingField (name : String)
  | unknownWord (word : String) (known : List String)
  | typeExpression (text : String) (fault : TypeExpr.Fault)
  | constraint (rejection : Constraint.Rejection)
  /-- A constraint that is neither a text nor a map from texts. -/
  | constraintForm
  /-- A value of a local type inside a constraint. -/
  | constraintTagged

/-- A step into a declaration file. -/
inductive Step where
  | field (name : String)
  | item (index : Nat)

/-- What is wrong, and where. -/
structure Fault where
  path : List Step := []
  problem : Problem

/-- The fault seen from one step further out. -/
def Fault.within (step : Step) (fault : Fault) : Fault :=
  { fault with path := step :: fault.path }

/-- A found value in words. -/
def Found.text : Found → String
  | scalar .null => "unit value"
  | scalar (.bool true) => "boolean `true`"
  | scalar (.bool false) => "boolean `false`"
  | scalar (.int n) => "integer `" ++ toString n ++ "`"
  | scalar (.wide n) => "integer `" ++ toString n ++ "` as i128"
  | scalar (.float x) => "floating point `" ++ x.positionalText ++ "`"
  | scalar (.infinite false) => "floating point `inf`"
  | scalar (.infinite true) => "floating point `-inf`"
  | scalar .notANumber => "floating point `NaN`"
  | scalar (.text s) => "string " ++ Text.literal s
  | sequence => "sequence"
  | mapping => "map"
  | tagged => "enum"

/-- A list of words to choose from. -/
def expectedWords (known : List String) : String :=
  match known.map fun name => "`" ++ name ++ "`" with
  | [one] => "expected " ++ one
  | [one, other] => "expected " ++ one ++ " or " ++ other
  | several => "expected one of " ++ ", ".intercalate several

/-- The problem in words. -/
def Problem.message : Problem → String
  | invalidType found expected => "invalid type: " ++ found.text ++ ", expected " ++ expected
  | notNull text => "invalid value: string " ++ Text.literal text ++ ", expected null"
  | unknownField name known => "unknown field `" ++ name ++ "`, " ++ expectedWords known
  | repeatedField name => "duplicate field `" ++ name ++ "`"
  | missingField name => "missing field `" ++ name ++ "`"
  | unknownWord word known => "unknown variant `" ++ word ++ "`, " ++ expectedWords known
  | typeExpression text fault =>
    "invalid type expression '" ++ text ++ "': " ++ fault.message
  | constraint rejection =>
    "invalid constraint '" ++ rejection.kind ++ "': " ++ rejection.fault.message
  | constraintForm => "data did not match any variant of untagged enum RawConstraint"
  | constraintTagged => "untagged and internally tagged enums do not support enum input"

/-- A path after a path. -/
def pathText : String → List Step → String
  | path, [] => path
  | path, .field name :: rest =>
    pathText (if path.isEmpty then name else path ++ "." ++ name) rest
  | path, .item index :: rest => pathText (path ++ "[" ++ toString index ++ "]") rest

/-- The fault in words, the place first. -/
def Fault.message (fault : Fault) : String :=
  let path := pathText "" fault.path
  if path.isEmpty then fault.problem.message else path ++ ": " ++ fault.problem.message

end SchemaCompiler.Declaration
