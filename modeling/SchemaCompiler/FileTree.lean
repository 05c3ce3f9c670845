import SchemaCompiler.Association
import SchemaCompiler.Failure

/-!
# File trees

The files and directories below a working directory, as far as a run sees them. Operations take
paths as they are written; `..` is followed through directories that are there. There are no
symbolic links: an entry is a file or a directory, and what is written to one location changes no
other.
-/

namespace SchemaCompiler

/-- What a file holds: a text, or bytes that are none. -/
inductive Content where
  | text (text : String)
  | binary (bytes : List UInt8)
deriving DecidableEq

/-- The content of some bytes. -/
def Content.ofBytes (bytes : List UInt8) : Content :=
  match String.fromUTF8? ⟨bytes.toArray⟩ with
  | some s => text s
  | none => binary bytes

/-- The text that a file holds. -/
def Content.text? : Content → Except FileFault String
  | text s => .ok s
  | binary _ => .error .notText

/-- A file or a directory. -/
inductive Entry where
  | directory
  | file (content : Content)
deriving DecidableEq

/-- Where an entry is: the names that lead to it. A path that leaves the working directory starts
with `..` or `/`. -/
abbrev Location := List String

/-- Files and directories by location. The working directory itself is not listed. -/
structure FileTree where
  entries : List (Location × Entry) := []

namespace FileTree

/-- Whether a location is at or above the working directory. -/
def isAbove (location : Location) : Bool := location.all fun name => name == ".." || name == "/"

/-- What is at a location. -/
def entry? (files : FileTree) (location : Location) : Option Entry :=
  if isAbove location then some .directory else files.entries.lookup location

/-- Fails unless a location is a directory. -/
def expectDirectory (files : FileTree) (location : Location) : Except FileFault Unit :=
  match files.entry? location with
  | some .directory => .ok ()
  | some (.file _) => .error .notADirectory
  | none => .error .notFound

/-- The location above another. -/
def above (location : Location) : Location :=
  match location.getLast? with
  | none => [".."]
  | some ".." => location ++ [".."]
  | some "/" => location
  | some _ => location.dropLast

/-- The location of components, followed from another one. -/
def walk (files : FileTree) : Location → List Path.Component → Except FileFault Location
  | location, [] => .ok location
  | _, .root :: rest => walk files ["/"] rest
  | location, .current :: rest => walk files location rest
  | location, .parent :: rest => do
    files.expectDirectory location
    walk files (above location) rest
  | location, .name text :: rest => do
    files.expectDirectory location
    walk files (location ++ [text]) rest

/-- Whether a path as written can only lead to a directory. -/
def namesDirectory (path : String) : Bool :=
  match path.toList.reverse with
  | '/' :: _ => true
  | '.' :: '/' :: _ => true
  | _ => false

/-- The location of a path. The empty path has none. -/
def locate (files : FileTree) (path : String) : Except FileFault Location :=
  if path.isEmpty then .error .notFound else files.walk [] (Path.components path)

/-- What is at a path. -/
def find (files : FileTree) (path : String) : Except FileFault Entry := do
  match files.entry? (← files.locate path) with
  | some .directory => return .directory
  | some (.file content) =>
    if namesDirectory path then throw .notADirectory else return .file content
  | none => throw .notFound

/-- The content of a file. -/
def read (files : FileTree) (path : String) : Except FileFault Content := do
  match ← files.find path with
  | .file content => return content
  | .directory => throw .isADirectory

/-- Whether a path leads to a directory. -/
def isDirectory (files : FileTree) (path : String) : Bool :=
  match files.find path with
  | .ok .directory => true
  | _ => false

/-- Whether a path leads to a file. -/
def isFile (files : FileTree) (path : String) : Bool :=
  match files.find path with
  | .ok (.file _) => true
  | _ => false

/-- Whether a path leads anywhere. -/
def hasEntry (files : FileTree) (path : String) : Bool :=
  match files.find path with
  | .ok _ => true
  | .error _ => false

/-- The names of the entries in a directory. -/
def children (files : FileTree) (location : Location) : List String :=
  files.entries.filterMap fun (other, _) =>
    match other.getLast? with
    | some name => if other.dropLast = location then some name else none
    | none => none

/-- Puts an entry at a location. -/
def put (files : FileTree) (location : Location) (entry : Entry) : FileTree :=
  ⟨Association.insert location entry files.entries⟩

/-- Removes a file. -/
def remove (files : FileTree) (path : String) : Except FileFault FileTree := do
  let location ← files.locate path
  match ← files.find path with
  | .directory => throw .isADirectory
  | .file _ => return ⟨files.entries.filter fun (other, _) => other != location⟩

/-- Makes a directory and those above it, component by component. -/
def makeDirectories (files : FileTree) : Location → List Path.Component →
    Except FileFault FileTree
  | _, [] => .ok files
  | _, .root :: rest => files.makeDirectories ["/"] rest
  | location, .current :: rest => files.makeDirectories location rest
  | location, .parent :: rest => files.makeDirectories (above location) rest
  | location, .name text :: rest =>
    let location := location ++ [text]
    match files.entry? location with
    | some .directory => files.makeDirectories location rest
    | some (.file _) =>
      .error (if rest.isEmpty then .other "File exists (os error 17)" else .notADirectory)
    | none => (files.put location .directory).makeDirectories location rest

/-- Writes a file into a directory that is there. -/
def write (files : FileTree) (path : String) (content : Content) : Except FileFault FileTree := do
  let location ← files.locate path
  match files.entry? location with
  | some .directory => throw .isADirectory
  | some (.file _) =>
    if namesDirectory path then throw .notADirectory
    return files.put location (.file content)
  | none =>
    if namesDirectory path then throw .notADirectory
    files.expectDirectory (above location)
    return files.put location (.file content)

end FileTree

end SchemaCompiler
