import SchemaCompiler.Generator
import SchemaCompiler.Proofs.BaseUri
import SchemaCompiler.Proofs.Path

/-!
# Settings of units

A unit has the default settings or those that it declares (`CompilationUnit.configuration_cases`).
Either way the documents stay inside the output directory
(`CompilationUnit.staysInside_of_configuration`), and the base URI, if there is one, is read from a
text (`CompilationUnit.isParsed_of_configuration`, `Generator.isParsed_of_ofUnit`).
-/

namespace SchemaCompiler

variable {config : Configuration}

/-- Declared settings have a base that is read from a text, and keep the documents inside. -/
lemma Configuration.of_ofDeclaration {declaration : ConfigurationDeclaration}
    (h : ofDeclaration declaration = .ok config) :
    (∃ base : BaseUri, config.baseUri = some base ∧ base.IsParsed) ∧
      Path.staysInside config.outputLocation = true := by
  unfold ofDeclaration at h
  split at h
  · next value _ =>
    obtain ⟨base, hbase, h⟩ := bind_eq_ok_iff.mp h
    obtain ⟨hinside, h⟩ := unless_eq_ok_iff.mp h
    obtain rfl := pure_eq_ok_iff.mp h
    exact ⟨⟨base, rfl, value, mapError_eq_ok_iff.mp hbase⟩, by simpa using hinside⟩
  · cases h

namespace CompilationUnit

variable {unit : CompilationUnit}

/-- The settings of a unit are the default ones, or it declares them. -/
lemma configuration_cases (h : unit.configuration = .ok config) :
    config = {} ∨ ∃ declaration, Configuration.ofDeclaration declaration = .ok config := by
  unfold CompilationUnit.configuration at h
  split at h
  · exact Or.inl (Except.ok.inj h).symm
  · next declaration _ => exact Or.inr ⟨declaration, mapError_eq_ok_iff.mp h⟩
  · cases h

/-- The settings of a unit keep the documents inside. -/
theorem staysInside_of_configuration (h : unit.configuration = .ok config) :
    Path.staysInside config.outputLocation = true := by
  rcases configuration_cases h with rfl | ⟨declaration, hdeclared⟩
  · rfl
  · exact (Configuration.of_ofDeclaration hdeclared).2

/-- The base of a unit is read from a text. -/
theorem isParsed_of_configuration (h : unit.configuration = .ok config) :
    ∀ base ∈ config.baseUri, base.IsParsed := by
  rcases configuration_cases h with rfl | ⟨declaration, hdeclared⟩
  · exact nofun
  · obtain ⟨⟨base, hbase, hparsed⟩, -⟩ := Configuration.of_ofDeclaration hdeclared
    intro other hother
    obtain rfl := Option.some.inj (hbase.symm.trans hother)
    exact hparsed

end CompilationUnit

/-- The base of the generator of a unit is read from a text. -/
theorem Generator.isParsed_of_ofUnit {unit : CompilationUnit} {g : Generator}
    (h : ofUnit unit = .ok g) : ∀ base ∈ g.config.baseUri, base.IsParsed := by
  obtain ⟨config, hconfig, hg⟩ := bind_eq_ok_iff.mp h
  obtain rfl := pure_eq_ok_iff.mp hg
  exact CompilationUnit.isParsed_of_configuration hconfig

end SchemaCompiler
