import SchemaCompiler.Proofs.Configuration
import SchemaCompiler.Proofs.Generator.Agreement
import SchemaCompiler.Proofs.Resources

/-!
# Documents stay in their directories

The settings of a unit do not let the documents out of the output directory, whatever it declares
(`CompilationUnit.staysInside_of_configuration`), and the schema name of a document is valid
(`Generator.isValid_schemaName`).  So a document is published below the output directory, and a
look-up reads nothing but a file of its directory (`Generator.stays_in_directory`).
-/

namespace SchemaCompiler

open SchemaCompiler.Path (IsName)

/-- A look-up of any name reads nothing, or one file with a proper name in the directory. -/
lemma Resources.get_eq_or (root name : String) :
    (∀ files, Resources.get files root name = .ok none) ∨
    ∃ file, (file = name ∨ file = SchemaName.fileName name) ∧ IsName file ∧
      Path.components (Path.join root file) = Path.components root ++ [.name file] ∧
      ∀ files, Resources.get files root name = textOf (files.read (Path.join root file)) := by
  cases hescapes : escapes name with
  | true => exact Or.inl fun files => get_of_escapes files root hescapes
  | false =>
    have hname := isName_fileName hescapes
    refine Or.inr ⟨fileName name, ?_, hname, Path.components_join hname,
      fun files => get_eq files root hescapes⟩
    by_cases hsuffix : SchemaName.HasSuffix name
    · exact Or.inl (fileName_of_hasSuffix hsuffix)
    · exact Or.inr (fileName_of_not_hasSuffix hsuffix)

namespace Generator

variable {g : Generator} {root : TypeName} {d : Document}

/-- The schema name of a document that a run generates is valid. -/
lemma isValid_schemaName {earlier : List TypeName}
    (h : (g.document (g.registryAfter earlier) root).2.2 = .ok d) :
    SchemaName.isValid d.schemaName = true := by
  obtain ⟨base, after, -, hsound, hread⟩ := exists_sound_readOff h
  exact (hread.holds hsound).valid

/-- A document of a configured unit is published below the output directory, in a file with a proper
name to which only components of the output location lead.  A look-up reads nothing, or a file with
a proper name in its directory. -/
theorem stays_in_directory :
    (∀ unit g, ofUnit unit = .ok g → ∀ earlier root d,
      (g.document (g.registryAfter earlier) root).2.2 = .ok d → ∀ output,
        ∃ inner, Path.components ((g.publisher output).pathFor d) =
            Path.components output ++ inner ++ [.name d.fileName] ∧
          (Path.components g.config.outputLocation = inner ∨
            Path.components g.config.outputLocation = .current :: inner) ∧
          (∀ c ∈ inner, c.Descends) ∧ IsName d.fileName) ∧
    ∀ root name, (∀ files, Resources.get files root name = .ok none) ∨
      ∃ file, (file = name ∨ file = SchemaName.fileName name) ∧ IsName file ∧
        Path.components (Path.join root file) = Path.components root ++ [.name file] ∧
        ∀ files, Resources.get files root name =
          Resources.textOf (files.read (Path.join root file)) := by
  constructor
  · intro unit g hunit earlier root d hd output
    obtain ⟨config, hconfig, hg⟩ := bind_eq_ok_iff.mp hunit
    obtain rfl := pure_eq_ok_iff.mp hg
    have hinside := CompilationUnit.staysInside_of_configuration hconfig
    have hname : IsName d.fileName := SchemaName.isName_fileName (isValid_schemaName hd)
    obtain ⟨inner, hinner, hlocation, hdescends⟩ :=
      Path.components_join_of_staysInside hinside output
    refine ⟨inner, ?_, hlocation, hdescends, hname⟩
    rw [Publisher.pathFor, Path.components_join hname, publisher, Publisher.into, hinner]
  · exact Resources.get_eq_or

/-- A unit that publishes its one type in a directory of its own. -/
def filed : CompilationUnit where
  types := [{
    name := .topLevel "" "Label"
    declaration := { name := "Label", schema := some {} }
    origin := "" }]
  configurations := [("", { baseUri := some "app://schemas", outputLocation := some "a//b" })]

/-- The document goes below the output directory, to the two directories of the location. -/
theorem filed_stays : ∃ g d, ofUnit filed = .ok g ∧
    (g.document (g.registryAfter []) (.topLevel "" "Label")).2.2 = .ok d ∧
    Path.components ((g.publisher "out").pathFor d) =
      [.name "out", .name "a", .name "b", .name "Label.schema.json"] := by
  have hunit : ofUnit filed = .ok
      { unit := filed,
        config := { baseUri := some ⟨"app://schemas"⟩, outputLocation := "a//b" } } := rfl
  refine ⟨_, _, hunit, rfl, ?_⟩
  obtain ⟨inner, hpath, hlocation, -, -⟩ :=
    stays_in_directory.1 filed _ hunit [] (.topLevel "" "Label") _ rfl "out"
  have hinner : inner = [.name "a", .name "b"] := by
    rcases hlocation with heq | heq
    · exact heq.symm
    · exact absurd (List.cons.inj heq).1 (by decide)
  rw [hpath, hinner]
  rfl

end Generator

end SchemaCompiler
