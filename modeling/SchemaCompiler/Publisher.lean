import SchemaCompiler.Document
import SchemaCompiler.FileTree

/-!
# Publishing

A publisher writes documents into a directory. It writes a path at most once, leaves a file alone
that holds the text already, and writes nothing of a document that is no schema.
-/

namespace SchemaCompiler

/-- What publishing did. -/
inductive WriteOutcome where
  | written
  /-- The file held the text already. -/
  | unchanged
deriving DecidableEq, Repr

/-- Whether a file holds exactly a text; a file that is not there does not. -/
def FileTree.isCurrent (files : FileTree) (path text : String) : Except FileFault Bool :=
  match files.read path with
  | .ok content => .ok (content == .text text)
  | .error .notFound => .ok false
  | .error fault => .error fault

/-- A directory for documents, and the paths that were published. -/
structure Publisher where
  directory : String
  published : List (List Path.Component) := []

/-- A publisher and files after an attempt, and what came of it. -/
structure Publication where
  publisher : Publisher
  files : FileTree
  outcome : Except Failure WriteOutcome

namespace Publisher

/-- A publisher into a location below an output directory. -/
def into (output location : String) : Publisher := ⟨Path.join output location, []⟩

/-- Where a document goes. -/
def pathFor (p : Publisher) (d : Document) : String := Path.join p.directory d.fileName

/-- Writes a file, the directories above it first. -/
def writeFile (p : Publisher) (files : FileTree) (path text : String) :
    FileTree × Option FileFault :=
  let directory :=
    if path.isEmpty then Path.components p.directory else (Path.components path).dropLast
  match files.makeDirectories [] directory with
  | .error fault => (files, some fault)
  | .ok made =>
    match made.write path (.text text) with
    | .ok files => (files, none)
    | .error fault => (made, some fault)

/-- Publishes a text at a path. -/
def publish (p : Publisher) (files : FileTree) (path text : String) : Publication :=
  let components := Path.components path
  if p.published.contains components then ⟨p, files, .error (.conflictingOutput path)⟩
  else
    let p := { p with published := components :: p.published }
    match files.isCurrent path text with
    | .error fault => ⟨p, files, .error (.file fault)⟩
    | .ok true => ⟨p, files, .ok .unchanged⟩
    | .ok false =>
      match p.writeFile files path text with
      | (files, none) => ⟨p, files, .ok .written⟩
      | (files, some fault) => ⟨p, files, .error (.file fault)⟩

/-- Publishes a document if it is a schema. -/
def emit (p : Publisher) (files : FileTree) (d : Document) : Publication :=
  match d.check with
  | .error failure => ⟨p, files, .error failure⟩
  | .ok () => p.publish files (p.pathFor d) d.render

end Publisher

end SchemaCompiler
