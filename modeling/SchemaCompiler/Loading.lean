import SchemaCompiler.Declaration.Reader
import SchemaCompiler.Generator

/-!
# Loading declarations

The declaration files that inputs stand for: a file itself, or the files of a directory that have
one of three suffixes, in the order of their names. The first file that cannot be read or added ends
the loading.
-/

namespace SchemaCompiler

/-- The suffixes of declaration files. -/
def declarationSuffixes : List String := ["yaml", "yml", "json"]

/-- Whether a file in a directory holds declarations by its name. -/
def isDeclarationName (name : String) : Bool :=
  match Path.suffixOf? name with
  | some suffix => declarationSuffixes.contains suffix
  | none => false

/-- Adds a text to an ordered list. -/
def insertOrdered (s : String) : List String → List String
  | [] => [s]
  | t :: rest => if s ≤ t then s :: t :: rest else t :: insertOrdered s rest

/-- Texts in order. -/
def ordered (texts : List String) : List String := texts.foldr insertOrdered []

/-- The declaration files that an input stands for. -/
def FileTree.declarationFiles (files : FileTree) (input : String) : List String :=
  match files.find input, files.locate input with
  | .ok .directory, .ok location =>
    let names := (files.children location).filter isDeclarationName
    ((ordered names).map (Path.join input)).filter files.isFile
  | _, _ => [input]

/-- The declarations of a file. -/
def DeclarationFile.load (files : FileTree) (path : String) : Except Failure DeclarationFile := do
  let content ← (files.read path).mapError Failure.file
  let source ← content.text?.mapError Failure.file
  (DeclarationFile.parse source).mapError (.parse path)

/-- A unit with the declarations of a file added. -/
def CompilationUnit.loadFile (files : FileTree) (unit : CompilationUnit) (path : String) :
    Except Failure CompilationUnit := do
  let file ← DeclarationFile.load files path
  (unit.addFile path file).mapError .duplicate

/-- The unit of some inputs. -/
def CompilationUnit.load (files : FileTree) (inputs : List String) :
    Except Failure CompilationUnit :=
  (inputs.flatMap files.declarationFiles).foldlM (CompilationUnit.loadFile files) {}

/-- The generator of some inputs. -/
def Generator.load (files : FileTree) (inputs : List String) : Except Failure Generator := do
  Generator.ofUnit (← CompilationUnit.load files inputs)

end SchemaCompiler
