import Mathlib.Data.List.Forall2
import SchemaCompiler.Generator
import SchemaCompiler.Proofs.CompilationUnit
import SchemaCompiler.Proofs.TypeGraph.Lookups

/-!
# The order of declarations

Files can be given in any order, and so can the types in each file (`Reordered`).  Either order has
a unit or neither has.  The two units have the same settings, and every document of the one is that
of the other, with the same findings, or fails for the same reason (`document_eq_of_reordered`).

The units hold the same types, of which no two have the same full name.  So full names find the same
types in both (`CompilationUnit.lookup?_congr`), and graphs are extracted by such look-ups alone.
-/

namespace SchemaCompiler

variable {files others : List (String × DeclarationFile)} {unit unit' : CompilationUnit}

/-- The second file declares what the first one does, its types in any order. -/
structure DeclarationFile.Rearranged (file other : String × DeclarationFile) : Prop where
  origin : file.1 = other.1
  package : file.2.package = other.2.package
  configuration : file.2.configuration = other.2.configuration
  types : file.2.types.Perm other.2.types

/-- The same files in any order, each with its types in any order. -/
def Reordered (files others : List (String × DeclarationFile)) : Prop :=
  ∃ between, files.Perm between ∧ List.Forall₂ DeclarationFile.Rearranged between others

/-! ### Declared types and settings -/

namespace DeclarationFile.Rearranged

variable {file other : String × DeclarationFile}

/-- A rearranged file declares the same types. -/
lemma perm_declaredTypes (h : Rearranged file other) :
    (file.2.declaredTypes file.1).Perm (other.2.declaredTypes other.1) := by
  unfold DeclarationFile.declaredTypes
  rw [TypeDeclaration.flattenList_eq, TypeDeclaration.flattenList_eq, h.origin, h.package]
  exact h.types.flatMap_right _

/-- A rearranged file declares the same settings. -/
lemma configuration_eq (h : Rearranged file other) :
    (file.2.configuration.map fun c => (file.1, c)) =
      other.2.configuration.map fun c => (other.1, c) := by
  rw [h.origin, h.configuration]

end DeclarationFile.Rearranged

namespace Reordered

/-- What is gathered from files one by one is gathered from reordered files in another order. -/
lemma perm_flatMap {α : Type} {gather : String × DeclarationFile → List α}
    (hgather : ∀ {file other}, DeclarationFile.Rearranged file other →
      (gather file).Perm (gather other)) (h : Reordered files others) :
    (files.flatMap gather).Perm (others.flatMap gather) := by
  obtain ⟨between, hperm, hrearranged⟩ := h
  refine (hperm.flatMap_right gather).trans ?_
  clear hperm
  induction hrearranged with
  | nil => exact .refl _
  | cons hfile _ ih =>
    rw [List.flatMap_cons, List.flatMap_cons]
    exact (hgather hfile).append ih

/-- Reordered files declare the same types. -/
lemma perm_typesOf (h : Reordered files others) :
    (CompilationUnit.typesOf files).Perm (CompilationUnit.typesOf others) :=
  h.perm_flatMap DeclarationFile.Rearranged.perm_declaredTypes

/-- Reordered files declare the same settings. -/
lemma perm_configurationsOf (h : Reordered files others) :
    (CompilationUnit.configurationsOf files).Perm (CompilationUnit.configurationsOf others) :=
  h.perm_flatMap fun hfile => .of_eq (congrArg Option.toList hfile.configuration_eq)

end Reordered

/-! ### Units -/

namespace CompilationUnit

/-- Units of the same types have distinct names both or neither. -/
lemma distinct_congr (h : unit.types.Perm unit'.types) : unit.Distinct ↔ unit'.Distinct :=
  (h.map fun t : DeclaredType => t.name.qualified).nodup_iff

/-- Full names find the same types in units of the same types. -/
lemma lookup?_congr (hunit : unit.Distinct) (h : unit.types.Perm unit'.types) :
    unit.lookup? = unit'.lookup? := by
  funext qualified
  refine Option.ext fun t => ?_
  rw [lookup?_eq_some_iff hunit, lookup?_eq_some_iff ((distinct_congr h).mp hunit), h.mem_iff]

/-- Two units that declare the same settings have the same settings, if they have any. -/
lemma configuration_congr (h : unit.configurations.Perm unit'.configurations)
    (config : Configuration) :
    unit.configuration = .ok config ↔ unit'.configuration = .ok config := by
  unfold configuration
  match hconfigured : unit.configurations with
  | [] =>
    rw [hconfigured, List.nil_perm] at h
    rw [h]
  | [(origin, declaration)] =>
    rw [hconfigured, List.singleton_perm] at h
    rw [← h]
  | first :: second :: rest =>
    -- Two declarations are ambiguous in any order; only the failure names them in order.
    rw [hconfigured] at h
    match hother : unit'.configurations with
    | [] | [_] =>
      rw [hother] at h
      have hlength := h.length_eq
      simp at hlength
    | _ :: _ :: _ => exact iff_of_false nofun nofun

end CompilationUnit

namespace Reordered

/-- Either order of the files has a unit or neither has. -/
lemma exists_unit_iff (h : Reordered files others) :
    (∃ unit, CompilationUnit.ofFiles files = .ok unit) ↔
      ∃ unit, CompilationUnit.ofFiles others = .ok unit := by
  simp only [CompilationUnit.ofFiles_eq_ok_iff, exists_eq_left]
  exact CompilationUnit.distinct_congr h.perm_typesOf

/-- The units of the two orders hold the same types and declare the same settings. -/
lemma units (h : Reordered files others) (hunit : CompilationUnit.ofFiles files = .ok unit)
    (hunit' : CompilationUnit.ofFiles others = .ok unit') :
    unit.types.Perm unit'.types ∧ unit.configurations.Perm unit'.configurations := by
  obtain ⟨rfl, -⟩ := CompilationUnit.ofFiles_eq_ok_iff.mp hunit
  obtain ⟨rfl, -⟩ := CompilationUnit.ofFiles_eq_ok_iff.mp hunit'
  exact ⟨h.perm_typesOf, h.perm_configurationsOf⟩

end Reordered

/-! ### Documents -/

namespace Generator

/-- Two generators with one setting whose units hold the same types have the same documents. -/
lemma document_congr (hunit : unit.Distinct) (h : unit.types.Perm unit'.types)
    (config : Configuration) (found found' : List Diagnostic) :
    document ⟨unit, config, found⟩ = document ⟨unit', config, found'⟩ := by
  have hagrees : TypeSource.Agrees ⟨unit, config.allowAny⟩ ⟨unit', config.allowAny⟩ :=
    ⟨CompilationUnit.lookup?_congr hunit h, h.length_eq, rfl⟩
  have hextract : extract ⟨unit, config, found⟩ = extract ⟨unit', config, found'⟩ :=
    hagrees.extract_eq
  funext registry root
  unfold document
  rw [hextract]
  rfl

/-- Files in any order, with their types in any order, have a unit or have none.  Their units have
the same settings, if any, and the same roots.  With these settings every root has the same
document, the same findings and the same effect on a registry, or fails for the same reason. -/
theorem document_eq_of_reordered (h : Reordered files others) :
    ((∃ unit, CompilationUnit.ofFiles files = .ok unit) ↔
      ∃ unit, CompilationUnit.ofFiles others = .ok unit) ∧
    ∀ unit unit', CompilationUnit.ofFiles files = .ok unit →
      CompilationUnit.ofFiles others = .ok unit' →
        (∀ config, unit.configuration = .ok config ↔ unit'.configuration = .ok config) ∧
        unit.roots.Perm unit'.roots ∧
        ∀ g g', ofUnit unit = .ok g → ofUnit unit' = .ok g' →
          ∀ registry root, g.document registry root = g'.document registry root := by
  refine ⟨h.exists_unit_iff, fun unit unit' hunit hunit' => ?_⟩
  obtain ⟨htypes, hconfigurations⟩ := h.units hunit hunit'
  have hconfiguration := CompilationUnit.configuration_congr hconfigurations
  refine ⟨hconfiguration, (htypes.filter _).map _, fun g g' hg hg' registry root => ?_⟩
  obtain ⟨config, hconfig, hg⟩ := bind_eq_ok_iff.mp hg
  obtain ⟨config', hconfig', hg'⟩ := bind_eq_ok_iff.mp hg'
  obtain rfl : config = config' :=
    Except.ok.inj (((hconfiguration config).mp hconfig).symm.trans hconfig')
  obtain rfl := pure_eq_ok_iff.mp hg
  obtain rfl := pure_eq_ok_iff.mp hg'
  rw [document_congr (CompilationUnit.distinct_of_ofFiles hunit) htypes]

/-- A herd of llamas, and the settings in a file of their own. -/
def herdFiles (types : List TypeDeclaration) : List (String × DeclarationFile) :=
  [ ("zoo.yaml", { package := some "zoo", types }),
    ("settings.yaml", { configuration := some { baseUri := some "app://schemas" } }) ]

/-- The types of the herd. -/
def herdTypes : List TypeDeclaration :=
  [ { name := "Herd"
      schema := some {}
      properties := [{ name := "members", type := .list (.named "Llama") }] },
    { name := "Llama", schema := some {} } ]

/-- The herd has the same document when its file comes last and its types stand in reverse. -/
theorem document_herd_eq :
    Reordered (herdFiles herdTypes) (herdFiles herdTypes.reverse).reverse ∧
    ∃ unit unit' g g' d,
      CompilationUnit.ofFiles (herdFiles herdTypes) = .ok unit ∧
      CompilationUnit.ofFiles (herdFiles herdTypes.reverse).reverse = .ok unit' ∧
      ofUnit unit = .ok g ∧ ofUnit unit' = .ok g' ∧ unit.roots ≠ unit'.roots ∧
      (g.document {} (.topLevel "zoo" "Herd")).2.2 = .ok d ∧
      (g'.document {} (.topLevel "zoo" "Herd")).2.2 = .ok d := by
  have hreordered : Reordered (herdFiles herdTypes) (herdFiles herdTypes.reverse).reverse := by
    refine ⟨(herdFiles herdTypes).reverse, (List.reverse_perm _).symm, ?_⟩
    exact .cons ⟨rfl, rfl, rfl, .refl _⟩ (.cons ⟨rfl, rfl, rfl, (List.reverse_perm _).symm⟩ .nil)
  have hg : ∀ unit, unit.configurations = [("settings.yaml", { baseUri := some "app://schemas" })] →
      ofUnit unit = .ok { unit, config := { baseUri := some ⟨"app://schemas"⟩ } } := by
    rintro ⟨types, _⟩ rfl
    rfl
  refine ⟨hreordered, _, _, _, _, _, rfl, rfl, hg _ rfl, hg _ rfl, by decide, rfl, ?_⟩
  obtain ⟨-, hunits⟩ := document_eq_of_reordered hreordered
  rw [← (hunits _ _ rfl rfl).2.2 _ _ (hg _ rfl) (hg _ rfl) {} _]
  rfl

end Generator

end SchemaCompiler
