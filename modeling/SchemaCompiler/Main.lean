import SchemaCompiler.CommandLine

/-!
# The program

The outermost layer: it reads what a command can see of the file system into a file tree, carries
the command out on it, and writes what changed. A command is carried out once on its inputs alone,
which shows the files it would write, and then on the tree that holds these files as well.
-/

namespace SchemaCompiler.Program

/-- The path of a location. -/
def pathOf : Location → String
  | [] => "."
  | "/" :: names => "/" ++ "/".intercalate names
  | names => "/".intercalate names

/-- What is at a location. -/
def observe (location : Location) : IO (Option Entry) := do
  let path := (← IO.currentDir) / pathOf location
  if ← path.isDir then return some .directory
  try return some (.file (Content.ofBytes (← IO.FS.readBinFile path).toList))
  catch _ => return none

/-- Adds what is at a location to a tree. -/
def record (files : FileTree) (location : Location) : IO FileTree := do
  match ← observe location with
  | some entry => return files.put location entry
  | none => return files

/-- Adds what is on the way along components, starting from a location. -/
def recordAlong (files : FileTree) : Location → List Path.Component → IO FileTree
  | _, [] => return files
  | _, .root :: rest => recordAlong files ["/"] rest
  | location, .current :: rest => recordAlong files location rest
  | location, .parent :: rest => recordAlong files (FileTree.above location) rest
  | location, .name text :: rest => do
    recordAlong (← record files (location ++ [text])) (location ++ [text]) rest

/-- Adds what an input leads to, with the declaration files of a directory. -/
def recordInput (files : FileTree) (input : String) : IO FileTree := do
  let files ← recordAlong files [] (Path.components input)
  if !files.isDirectory input then return files
  match files.locate input with
  | .error _ => return files
  | .ok location =>
    let entries ← ((← IO.currentDir) / pathOf location).readDir
    let names := (entries.toList.map (·.fileName)).filter isDeclarationName
    names.foldlM (fun files name => record files (location ++ [name])) files

/-- The entries of a tree that another one does not hold. -/
def changes (before after : FileTree) : List (Location × Entry) :=
  after.entries.filter fun (location, entry) => before.entries.lookup location != some entry

/-- Writes an entry. -/
def writeEntry (location : Location) (entry : Entry) : IO Unit := do
  let path := (← IO.currentDir) / pathOf location
  match entry with
  | .directory => IO.FS.createDirAll path
  | .file (.text text) => IO.FS.writeFile path text
  | .file (.binary bytes) => IO.FS.writeBinFile path ⟨bytes.toArray⟩

/-- The inputs of a command and the directory that it publishes into. -/
def reads : Command → List String × Option String
  | .generate inputs output => (inputs, some output)
  | .check inputs output => (inputs, some output)
  | .print _ inputs => (inputs, none)

/-- The tree that a command sees. -/
def snapshot (command : Command) : IO FileTree := do
  let (inputs, output?) := reads command
  let files ← inputs.foldlM recordInput {}
  match output? with
  | none => return files
  | some output =>
    let files ← recordAlong files [] (Path.components output)
    let wouldWrite := changes files (Command.run files (.generate inputs output)).1
    wouldWrite.foldlM (fun files (location, _) => record files location) files

/-- Carries out a command on the file system. -/
def perform (command : Command) : IO CommandResult := do
  let before ← snapshot command
  let (after, result) := command.run before
  (changes before after).forM fun (location, entry) => writeEntry location entry
  return result

/-- The result of the command that arguments stand for. -/
def result (args : List String) : IO CommandResult := do
  match Command.parse args with
  | .ok command => perform command
  | .error _ => return (Command.runArguments {} args).2

end SchemaCompiler.Program

/-- Runs the command line and prints what it leaves. -/
def main (args : List String) : IO UInt32 := do
  let result ← SchemaCompiler.Program.result args
  IO.print result.output
  if let some error := result.error then IO.eprintln error
  return UInt32.ofNat result.code
