import SchemaCompiler.Definition.Session
import SchemaCompiler.Publisher
import SchemaCompiler.TypeGraph.Extraction

/-!
# Generation

A generator has the declarations and settings of a run. The documents of single roots can be
generated one after another with one registry. A run over all roots has a session for each of them:
the sessions run at once and share a registry, and turns say in which order their steps are taken
(`Generator.generateAll`). Without turns they run one after another. Which of two types with one
identifier is the first to claim it, and so which root fails, is up to the turns.

A failure of the configuration ends a run before any document is generated; any other failure
concerns one root, and the others go on.
-/

namespace SchemaCompiler

/-- The settings that a unit declares. -/
def CompilationUnit.configuration (unit : CompilationUnit) : Except Failure Configuration :=
  match unit.configurations with
  | [] => .ok {}
  | [(_, declaration)] => (Configuration.ofDeclaration declaration).mapError .invalidConfiguration
  | several => .error (.ambiguousConfiguration (several.map (·.1)))

/-- The declarations and settings of a run, and what has been found so far. -/
structure Generator where
  unit : CompilationUnit
  config : Configuration
  findings : List Diagnostic := []

/-- A root and its document, or why it has none. -/
abbrev RootResult := TypeName × Except Failure Document

/-- The outcome of a run that publishes. -/
structure GenerationReport where
  written : List String := []
  unchanged : List String := []
  failures : List (TypeName × Failure) := []
  diagnostics : List Diagnostic := []

/-- The outcome of a run that compares. -/
structure CheckReport where
  current : List String := []
  /-- The files that hold something else. -/
  stale : List String := []
  missing : List String := []
  failures : List (TypeName × Failure) := []

/-- Whether every document is up to date. -/
def CheckReport.isUpToDate (r : CheckReport) : Bool :=
  r.stale.isEmpty && r.missing.isEmpty && r.failures.isEmpty

namespace Generator

variable (g : Generator)

/-- The generator of a unit. -/
def ofUnit (unit : CompilationUnit) : Except Failure Generator := do
  return { unit, config := ← unit.configuration }

/-- The generator with more findings. -/
def withFindings (found : List Diagnostic) : Generator := { g with findings := g.findings ++ found }

/-- What has been found, in the order of reports. -/
def diagnostics : List Diagnostic := Diagnostic.snapshot g.findings

/-- The base URI, which documents cannot do without. -/
def baseUri : Except Failure BaseUri :=
  match g.config.baseUri with
  | some base => .ok base
  | none => .error (.invalidConfiguration .noBase)

/-- The graph of a root. -/
def extract (root : TypeName) : Reported TypeGraph :=
  TypeSource.extract ⟨g.unit, g.config.allowAny⟩ root

/-- The document of a root with the registry after it and what was found. -/
def document (registry : Registry) (root : TypeName) :
    Registry × List Diagnostic × Except Failure Document :=
  match g.baseUri with
  | .error failure => (registry, [], .error failure)
  | .ok base =>
    let extracted := g.extract root
    match extracted.result with
    | .error failure => (registry, extracted.findings, .error failure)
    | .ok graph =>
      let (registry, found, resolved) := Resolver.resolve ⟨graph, g.config, base⟩ registry root
      (registry, extracted.findings ++ found, resolved.map (Document.ofRoot g.config.draft))

/-- The documents of roots, one after another, with the registry after them and what was found. -/
def documents : Registry → List TypeName → Registry × List Diagnostic × List RootResult
  | registry, [] => (registry, [], [])
  | registry, root :: rest =>
    let (registry, found, result) := g.document registry root
    let (registry, foundLater, results) := documents registry rest
    (registry, found ++ foundLater, (root, result) :: results)

/-- What is found in a root and its document, while other roots use the registry too. -/
def session (root : TypeName) : Process Registry (List Diagnostic × Except Failure Document) :=
  match g.baseUri with
  | .error failure => .done ([], .error failure)
  | .ok base =>
    let extracted := g.extract root
    match extracted.result with
    | .error failure => .done (extracted.findings, .error failure)
    | .ok graph => do
      let (found, resolved) ← Resolver.session ⟨graph, g.config, base⟩ root
      return (extracted.findings ++ found, resolved.map (Document.ofRoot g.config.draft))

/-- The documents of all roots, whose sessions take the given turns. What the sessions find is noted
root by root, since the order of reports does not show in what has been found. -/
def generateAll (turns : List Nat := []) : Generator × Except Failure (List RootResult) :=
  match g.baseUri with
  | .error failure => (g, .error failure)
  | .ok _ =>
    let (_, answers) := Process.runAll turns {} (g.unit.roots.map g.session)
    (g.withFindings (answers.flatMap (·.1)), .ok (g.unit.roots.zip (answers.map (·.2))))

/-! ### Publishing -/

/-- The state of a run that publishes. -/
structure Emission where
  publisher : Publisher
  files : FileTree
  report : GenerationReport := {}

/-- Publishes the document of a root. -/
def emitRoot (state : Emission) (result : RootResult) : Emission :=
  match result with
  | (root, .error failure) =>
    { state with
      report := { state.report with failures := state.report.failures ++ [(root, failure)] } }
  | (root, .ok document) =>
    let path := state.publisher.pathFor document
    let publication := state.publisher.emit state.files document
    let report :=
      match publication.outcome with
      | .ok .written => { state.report with written := state.report.written ++ [path] }
      | .ok .unchanged => { state.report with unchanged := state.report.unchanged ++ [path] }
      | .error failure =>
        { state.report with failures := state.report.failures ++ [(root, failure)] }
    ⟨publication.publisher, publication.files, report⟩

/-- Publishes the documents of all roots, whose sessions take the given turns, one after another. -/
def emitAll (files : FileTree) (output : String) (turns : List Nat := []) :
    Generator × FileTree × Except Failure GenerationReport :=
  match g.generateAll turns with
  | (g, .error failure) => (g, files, .error failure)
  | (g, .ok results) =>
    let start : Emission := { publisher := .into output g.config.outputLocation, files }
    let final := results.foldl emitRoot start
    (g, final.files, .ok { final.report with diagnostics := g.diagnostics })

/-! ### Comparing -/

/-- Compares the document of a root with its file. -/
def checkRoot (publisher : Publisher) (files : FileTree) (report : CheckReport)
    (result : RootResult) : CheckReport :=
  let (root, result) := result
  let fail (failure : Failure) : CheckReport :=
    { report with failures := report.failures ++ [(root, failure)] }
  match result with
  | .error failure => fail failure
  | .ok document =>
    match document.check with
    | .error failure => fail failure
    | .ok () =>
      let path := publisher.pathFor document
      match files.isCurrent path document.render with
      | .error fault => fail (.file fault)
      | .ok true => { report with current := report.current ++ [path] }
      | .ok false =>
        if files.hasEntry path then { report with stale := report.stale ++ [path] }
        else { report with missing := report.missing ++ [path] }

/-- Compares the documents of all roots, whose sessions take the given turns, with their files. -/
def checkAll (files : FileTree) (output : String) (turns : List Nat := []) :
    Generator × Except Failure CheckReport :=
  match g.generateAll turns with
  | (g, .error failure) => (g, .error failure)
  | (g, .ok results) =>
    (g, .ok (results.foldl (checkRoot (.into output g.config.outputLocation) files) {}))

end Generator

end SchemaCompiler
