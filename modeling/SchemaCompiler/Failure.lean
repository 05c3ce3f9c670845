import SchemaCompiler.Configuration
import SchemaCompiler.Declaration.Fault
import SchemaCompiler.TypeExpr.Basic

/-!
# Failures

Why a run, or one document of it, fails. A failure of the configuration concerns the whole run,
any other one root.
-/

namespace SchemaCompiler

/-- Why a declared type has no schema. -/
inductive Unsupported where
  | notDeclared
  | noValues
  | noVariants
  | undeclaredName (written : String)
  | variantNotObject
  | anyNotAllowed
  /-- A polymorphic type without variants. -/
  | openType (name : TypeName)
  | mapKey (key : TypeExpr)
  | repeatedProperty
  | notUnwrappable
  | unwrapsItself (name : TypeName)
  | notExtracted
deriving DecidableEq, Repr

/-- Why a generated document is no schema. -/
inductive Invalidity where
  | metaSchema
  | danglingReference (target : String)
  | uncompilable
deriving DecidableEq, Repr

/-- Why a file operation fails. -/
inductive FileFault where
  | notFound
  | notADirectory
  | isADirectory
  | notText
  | other (message : String)
deriving DecidableEq, Repr

/-- Why a text is no declaration file. -/
inductive ParseFault where
  /-- The text stands for no data. -/
  | malformed
  | rejected (fault : Declaration.Fault)

/-- Why a run or a document fails. -/
inductive Failure where
  | parse (origin : String) (fault : ParseFault)
  | duplicate (duplicate : DuplicateDeclaration)
  | ambiguousConfiguration (origins : List String)
  | invalidConfiguration (fault : Configuration.Fault)
  | invalidSchemaName (name : String)
  | unsupported (typeName path : String) (cause : Unsupported)
  | collision (id : CanonicalId) (first second : TypeName)
  | unregistered (id : CanonicalId)
  | selfValidation (schemaName : String) (invalidity : Invalidity)
  | conflictingOutput (path : String)
  | file (fault : FileFault)

/-- The reason in words. -/
def Unsupported.message : Unsupported → String
  | notDeclared => "type is not declared"
  | noValues => "enum declares no values"
  | noVariants => "polymorphic type declares no variants and cannot be represented"
  | undeclaredName written => "undeclared type '" ++ written ++ "'"
  | variantNotObject => "union variants must be object types"
  | anyNotAllowed => "'any' requires allow_any in the configuration"
  | openType name => "open polymorphic type '" ++ name.qualified ++ "' has no variants"
  | mapKey key => "map keys must be strings, found '" ++ key.text ++ "'"
  | repeatedProperty => "two properties serialize under the same JSON name"
  | notUnwrappable => "only a non-null object type can be unwrapped"
  | unwrapsItself name =>
    "unwrapping '" ++ name.qualified ++ "' leads back to a type being unwrapped"
  | notExtracted => "type was not extracted"

/-- The reason in words. -/
def Invalidity.message : Invalidity → String
  | metaSchema => "meta-schema"
  | danglingReference target => "unresolved $ref '" ++ target ++ "'"
  | uncompilable => "compile"

/-- The reason in words. -/
def FileFault.message : FileFault → String
  | notFound => "No such file or directory (os error 2)"
  | notADirectory => "Not a directory (os error 20)"
  | isADirectory => "Is a directory (os error 21)"
  | notText => "stream did not contain valid UTF-8"
  | other message => message

/-- The reason in words. -/
def ParseFault.message : ParseFault → String
  | malformed => "malformed YAML"
  | rejected fault => fault.message

namespace Failure

/-- The failure in words. -/
def message : Failure → String
  | parse origin fault => "cannot parse declarations in " ++ origin ++ ": " ++ fault.message
  | duplicate d => "type '" ++ d.name ++ "' is declared in both " ++ d.first ++ " and " ++ d.second
  | ambiguousConfiguration origins =>
    "ambiguous configuration: declared in " ++ ", ".intercalate origins
  | invalidConfiguration fault => "invalid configuration: " ++ fault.message
  | invalidSchemaName name =>
    "invalid schema name '" ++ name ++
      "': only ASCII letters, digits, '.', '_' and '-' are allowed"
  | unsupported typeName path cause =>
    "unsupported type in " ++ typeName ++ " at '" ++ path ++ "': " ++ cause.message
  | collision id first second =>
    "types " ++ first.qualified ++ " and " ++ second.qualified ++
      " both map to schema identifier " ++ id.uri
  | unregistered id => "definition " ++ id.uri ++ " was referenced but never registered"
  | selfValidation schemaName invalidity =>
    "generated schema '" ++ schemaName ++ "' is not a valid JSON Schema: " ++ invalidity.message
  | conflictingOutput path =>
    "conflicting output: " ++ path ++ " was already written in this run"
  | file fault => "io error: " ++ fault.message

/-- Whether the failure concerns the whole run. -/
def isFatal : Failure → Bool
  | ambiguousConfiguration _ | invalidConfiguration _ => true
  | _ => false

end Failure

end SchemaCompiler
