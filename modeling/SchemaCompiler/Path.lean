import SchemaCompiler.Text.Split

/-!
# File paths

A path is a text with `/` between its components. Empty components say nothing, and `.` says
something only at the beginning. Two paths are the same if they have the same components.
-/

namespace SchemaCompiler.Path

/-- A component of a path. -/
inductive Component where
  | root
  /-- A point at the beginning. -/
  | current
  | parent
  | name (text : String)
deriving DecidableEq, Repr

/-- The components of pieces after the first. -/
def ofPieces : List (List Char) → List Component
  | [] => []
  | [] :: rest => ofPieces rest
  | ['.'] :: rest => ofPieces rest
  | ['.', '.'] :: rest => .parent :: ofPieces rest
  | piece :: rest => .name (String.ofList piece) :: ofPieces rest

/-- Whether a path starts at the root. -/
def isAbsolute (path : String) : Bool := path.toList.head? == some '/'

/-- The components of a path. -/
def components (path : String) : List Component :=
  let cs := path.toList
  let pieces := Text.splitOn (· == '/') cs
  if cs.head? == some '/' then .root :: ofPieces pieces
  else
    match pieces with
    | ['.'] :: rest => .current :: ofPieces rest
    | pieces => ofPieces pieces

/-- A path below another; an absolute one replaces it. -/
def join (base path : String) : String :=
  if isAbsolute path || base.isEmpty then path
  else if base.toList.getLast? == some '/' then base ++ path
  else base ++ "/" ++ path

/-- Whether a path stays below the directory that it starts from. -/
def staysInside (path : String) : Bool :=
  (components path).all fun
    | .name _ => true
    | .current => true
    | .root => false
    | .parent => false

/-- The name of the file, if the path ends with a name. -/
def fileName? (path : String) : Option String :=
  match (components path).getLast? with
  | some (.name text) => some text
  | _ => none

/-- What stands after the last point of a file name that does not begin there. -/
def suffixOf? (name : String) : Option String :=
  match Text.splitAtLast (· == '.') name.toList with
  | some ([], _) => none
  | some (_, suffix) => some (String.ofList suffix)
  | none => none

end SchemaCompiler.Path
