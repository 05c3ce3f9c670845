import SchemaCompiler.Declaration.Basic
import SchemaCompiler.TypeName

/-!
# Compilation units

All declarations that one run works on. A unit lists the declared types in the order of the files,
each type before those nested in it, and no two of them have the same full name.
-/

namespace SchemaCompiler

/-- A declared type, its name, and the file it comes from. The types nested in it are listed on
their own. -/
structure DeclaredType where
  name : TypeName
  declaration : TypeDeclaration
  origin : String

/-- Whether the type gets a document of its own. -/
def DeclaredType.isRoot (t : DeclaredType) : Bool := t.declaration.schema.isSome

/-- A name that is declared twice, and where. -/
structure DuplicateDeclaration where
  name : String
  first : String
  second : String
deriving DecidableEq, Repr

/-- The declarations of one run. -/
structure CompilationUnit where
  types : List DeclaredType := []
  /-- The declared settings with their files. -/
  configurations : List (String × ConfigurationDeclaration) := []

mutual

/-- A type and all types nested in it, outer ones first. -/
def TypeDeclaration.flatten (origin : String) (name : TypeName) :
    TypeDeclaration → List DeclaredType
  | .mk simple kind schema description properties values discriminator variants nested
      ignoreProperties includeProperties additionalProperties =>
    { name
      declaration := .mk simple kind schema description properties values discriminator variants []
        ignoreProperties includeProperties additionalProperties
      origin } :: flattenList origin name.nested nested

/-- The types of a list and all types nested in them; `qualify` gives the name of each. -/
def TypeDeclaration.flattenList (origin : String) (qualify : String → TypeName) :
    List TypeDeclaration → List DeclaredType
  | [] => []
  | t :: rest => t.flatten origin (qualify t.name) ++ flattenList origin qualify rest

end

/-- The types that a file declares. -/
def DeclarationFile.declaredTypes (file : DeclarationFile) (origin : String) :
    List DeclaredType :=
  TypeDeclaration.flattenList origin (TypeName.topLevel (file.package.getD "")) file.types

namespace CompilationUnit

/-- The declared type of a full name. -/
def lookup? (unit : CompilationUnit) (qualified : String) : Option DeclaredType :=
  unit.types.find? fun t => t.name.qualified == qualified

/-- Adds a type whose name is new. -/
def addType (unit : CompilationUnit) (t : DeclaredType) :
    Except DuplicateDeclaration CompilationUnit :=
  match unit.lookup? t.name.qualified with
  | some existing => .error ⟨t.name.qualified, existing.origin, t.origin⟩
  | none => .ok { unit with types := unit.types ++ [t] }

/-- Adds the declarations of a file. -/
def addFile (unit : CompilationUnit) (origin : String) (file : DeclarationFile) :
    Except DuplicateDeclaration CompilationUnit :=
  let configured :=
    { unit with
      configurations :=
        unit.configurations ++ (file.configuration.map fun c => (origin, c)).toList }
  (file.declaredTypes origin).foldlM addType configured

/-- The unit of files with their origins. -/
def ofFiles (files : List (String × DeclarationFile)) :
    Except DuplicateDeclaration CompilationUnit :=
  files.foldlM (fun unit (origin, file) => unit.addFile origin file) {}

/-- The types that get documents of their own, in order. -/
def roots (unit : CompilationUnit) : List TypeName :=
  (unit.types.filter DeclaredType.isRoot).map (·.name)

/-- The type that a name stands for inside another type: in the innermost scope where it is
declared, else as a full name. -/
def resolve? (unit : CompilationUnit) (inside : TypeName) (written : String) :
    Option DeclaredType :=
  match inside.scopes.findSome? fun scope => unit.lookup? (scope ++ "." ++ written) with
  | some t => some t
  | none => unit.lookup? written

/-- A root by its full name, its name inside the package, or its schema name. -/
def findRoot? (unit : CompilationUnit) (name : String) : Option TypeName :=
  (unit.types.find? fun t =>
    t.isRoot &&
      (t.name.qualified == name || t.name.chain == name ||
        (t.declaration.schema.bind (·.name)) == some name)).map (·.name)

end CompilationUnit

end SchemaCompiler
