import SchemaCompiler.Loading

/-!
# The command line

The commands `generate`, `check` and `show`, how their arguments are read, and what each prints. A
command ends with 0 when all is well, with 1 when some document failed or is not up to date, and
with 2 when it could not be carried out.
-/

namespace SchemaCompiler

/-- A command with its arguments. -/
inductive Command where
  | generate (inputs : List String) (output : String)
  | check (inputs : List String) (output : String)
  | print (root : String) (inputs : List String)
deriving DecidableEq, Repr

/-- Why arguments are no command. -/
inductive Command.Refusal where
  | help
  | version
  | usage
deriving DecidableEq, Repr

/-- What a command leaves: its exit code, what it prints, and why it could not be carried out. -/
structure CommandResult where
  code : Nat
  output : String := ""
  error : Option String := none

namespace Command

/-! ### Arguments -/

/-- The arguments read so far. -/
structure Arguments where
  positional : List String := []
  output : Option String := none
  logJson : Bool := false
  /-- Whether the value of `--out` comes next. -/
  awaitsOutput : Bool := false
  /-- Whether options have ended. -/
  onlyPositional : Bool := false

/-- Which options can be given. -/
structure Accepts where
  output : Bool := false
  version : Bool := false

/-- Reads an outcome of reading arguments. -/
abbrev Parsing := Except Refusal

/-- Takes the output directory. -/
def Arguments.setOutput (a : Arguments) (value : String) : Parsing Arguments :=
  if value.isEmpty || a.output.isSome then .error .usage
  else .ok { a with output := some value, awaitsOutput := false }

/-- Takes the option for logs as JSON, which stands once. -/
def Arguments.setLogJson (a : Arguments) : Parsing Arguments :=
  if a.logJson then .error .usage else .ok { a with logJson := true }

/-- Short options behind one hyphen. The value of `-o` is what follows it. -/
def Arguments.readShort (accepts : Accepts) : Arguments → List Char → Parsing Arguments
  | a, [] => .ok a
  | a, 'v' :: rest => readShort accepts a rest
  | _, 'h' :: _ => .error .help
  | _, 'V' :: _ => .error (if accepts.version then .version else .usage)
  | a, 'o' :: rest =>
    if !accepts.output then .error .usage
    else
      match rest with
      | [] => if a.output.isSome then .error .usage else .ok { a with awaitsOutput := true }
      | '=' :: value => a.setOutput (String.ofList value)
      | value => a.setOutput (String.ofList value)
  | _, _ :: _ => .error .usage

/-- A long option, without its hyphens. -/
def Arguments.readLong (accepts : Accepts) (a : Arguments) (cs : List Char) : Parsing Arguments :=
  let name := cs.takeWhile (· != '=')
  let value? := if name.length < cs.length then some (cs.drop (name.length + 1)) else none
  match String.ofList name, value? with
  | "verbose", none => .ok a
  | "log-json", none => a.setLogJson
  | "help", none => .error .help
  | "version", none => .error (if accepts.version then .version else .usage)
  | "out", value? =>
    if !accepts.output then .error .usage
    else
      match value? with
      | some value => a.setOutput (String.ofList value)
      | none => if a.output.isSome then .error .usage else .ok { a with awaitsOutput := true }
  | _, _ => .error .usage

/-- The next argument. -/
def Arguments.read (accepts : Accepts) (a : Arguments) (arg : String) : Parsing Arguments :=
  if a.onlyPositional then .ok { a with positional := a.positional ++ [arg] }
  else
    match arg.toList with
    | ['-'] =>
      if a.awaitsOutput then a.setOutput arg
      else .ok { a with positional := a.positional ++ [arg] }
    | '-' :: cs =>
      if a.awaitsOutput then .error .usage
      else
        match cs with
        | ['-'] => .ok { a with onlyPositional := true }
        | '-' :: name => a.readLong accepts name
        | flags => a.readShort accepts flags
    | _ =>
      if a.awaitsOutput then a.setOutput arg
      else .ok { a with positional := a.positional ++ [arg] }

/-- The inputs of a command: at least one, none of them empty. -/
def inputsOf (inputs : List String) : Parsing (List String) :=
  if inputs.isEmpty || inputs.any String.isEmpty then .error .usage else .ok inputs

/-- The command of a name and the arguments after it. -/
def ofArguments (name : String) (args : List String) : Parsing Command := do
  let takesOutput := name == "generate" || name == "check"
  let a ← args.foldlM (Arguments.read { output := takesOutput }) {}
  if a.awaitsOutput then throw .usage
  match name, a.positional with
  | "generate", inputs => return generate (← inputsOf inputs) (a.output.getD ".")
  | "check", inputs => return check (← inputsOf inputs) (a.output.getD ".")
  | "show", root :: inputs => return print root (← inputsOf inputs)
  | _, _ => throw .usage

/-- The names of the commands. -/
def names : List String := ["generate", "check", "show"]

/-- The command that arguments stand for, after options that hold for every command. -/
def parseAfter (a : Arguments) : List String → Parsing Command
  | [] => .error .usage
  | arg :: rest =>
    match arg.toList with
    | ['-'] => .error .usage
    | ['-', '-'] => .error .usage
    | '-' :: '-' :: name => do parseAfter (← a.readLong { version := true } name) rest
    | '-' :: flags => do parseAfter (← a.readShort { version := true } flags) rest
    | _ =>
      if names.contains arg then ofArguments arg rest
      else if arg == "help" && rest.all names.contains && rest.length ≤ 1 then .error .help
      else .error .usage

/-- The command that arguments stand for. -/
def parse (args : List String) : Parsing Command := parseAfter {} args

/-! ### Commands -/

/-- The name and version that are printed. -/
def versionText : String := "schemaforge 0.1.0\n"

/-- Lines with a label each. -/
def labelled (label : String) (lines : List String) : String :=
  String.join (lines.map fun line => "  " ++ label ++ line ++ "\n")

/-- The roots that failed, one a line. -/
def failureLines (failures : List (TypeName × Failure)) : String :=
  labelled "FAILED     " (failures.map fun (root, failure) =>
    root.qualified ++ ": " ++ failure.message)

/-- A failure with its causes. -/
def causes (failure : Failure) : String :=
  match failure with
  | .file fault => failure.message ++ ": " ++ fault.message
  | _ => failure.message

/-- A command that could not be carried out. -/
def aborted (context : String) (failure : Failure) : CommandResult :=
  { code := 2, error := some (context ++ ": " ++ causes failure) }

/-- Goes on with the generator of some inputs. -/
def withGenerator {α : Type} (files : FileTree) (inputs : List String)
    (failed : CommandResult → α) (next : Generator → α) : α :=
  match Generator.load files inputs with
  | .ok g => next g
  | .error failure =>
    failed (aborted ("failed to load declarations from " ++ ", ".intercalate inputs) failure)

/-- What `generate` prints. -/
def generateText (report : GenerationReport) : String :=
  labelled "wrote      " report.written ++ labelled "unchanged  " report.unchanged ++
    labelled "warning    " (report.diagnostics.map Diagnostic.text) ++
    failureLines report.failures ++ "\n" ++ toString report.written.length ++ " written, " ++
    toString report.unchanged.length ++ " unchanged, " ++ toString report.failures.length ++
    " failed\n"

/-- Publishes the documents of all roots. -/
def runGenerate (files : FileTree) (inputs : List String) (output : String) :
    FileTree × CommandResult :=
  withGenerator files inputs (files, ·) fun g =>
    match g.emitAll files output with
    | (_, files, .error failure) => (files, aborted "schema generation aborted" failure)
    | (_, files, .ok report) =>
      (files, { code := if report.failures.isEmpty then 0 else 1, output := generateText report })

/-- What `check` prints. -/
def checkText (report : CheckReport) : String :=
  labelled "stale      " report.stale ++ labelled "missing    " report.missing ++
    failureLines report.failures ++
    if report.isUpToDate then toString report.current.length ++ " schema documents up to date\n"
    else "\nrun `schemaforge generate` to update the documents\n"

/-- Compares the documents of all roots with their files. -/
def runCheck (files : FileTree) (inputs : List String) (output : String) : CommandResult :=
  withGenerator files inputs id fun g =>
    match (g.checkAll files output).2 with
    | .error failure => aborted "schema check aborted" failure
    | .ok report => { code := if report.isUpToDate then 0 else 1, output := checkText report }

/-- Prints the document of one root. -/
def runShow (files : FileTree) (root : String) (inputs : List String) : CommandResult :=
  withGenerator files inputs id fun g =>
    match g.unit.findRoot? root with
    | none =>
      let known := ", ".intercalate (g.unit.roots.map TypeName.qualified)
      { code := 2, error := some ("no root type '" ++ root ++ "' (known: " ++ known ++ ")") }
    | some name =>
      match (g.document {} name).2.2 with
      | .error failure => aborted ("failed to generate " ++ name.qualified) failure
      | .ok document =>
        match document.check with
        | .error failure => { code := 2, error := some (causes failure) }
        | .ok () => { code := 0, output := document.render }

/-- Carries out a command; the files after it and what it leaves. -/
def run (files : FileTree) : Command → FileTree × CommandResult
  | generate inputs output => runGenerate files inputs output
  | check inputs output => (files, runCheck files inputs output)
  | print root inputs => (files, runShow files root inputs)

/-- Carries out the command that arguments stand for. -/
def runArguments (files : FileTree) (args : List String) : FileTree × CommandResult :=
  match parse args with
  | .ok command => command.run files
  | .error .help => (files, { code := 0 })
  | .error .version => (files, { code := 0, output := versionText })
  | .error .usage => (files, { code := 2 })

end Command

end SchemaCompiler
