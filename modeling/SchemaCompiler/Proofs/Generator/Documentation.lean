import Mathlib.Data.List.Forall2
import SchemaCompiler.Proofs.Definition.Documentation
import SchemaCompiler.Proofs.Generator.Sessions

/-!
# Documents under other documentation

Settings for titles and descriptions have no effect but on titles and descriptions.  Whatever they
are, a root has a document or fails for the same reason, with the same findings, and the two
documents are equal without documentation (`Generator.document_redocumented`).  The same holds of
all roots of a run whose sessions go one after another (`Generator.generateAll_alike`).
-/

namespace SchemaCompiler

/-- The second document is the first one but for titles and descriptions. -/
structure Document.Alike (first second : Document) : Prop where
  id : first.id = second.id
  schemaName : first.schemaName = second.schemaName
  draft : first.draft = second.draft
  root : first.root.undocumented = second.root.undocumented
  definitions : Definition.AllAlike first.definitions second.definitions

/-- The documents of roots that are alike are alike. -/
lemma ResolvedRoot.Alike.document {first second : ResolvedRoot} (h : first.Alike second)
    (draft : Draft) : (Document.ofRoot draft first).Alike (Document.ofRoot draft second) := by
  obtain ⟨hid, -, hschemaName, hroot, -⟩ := Definition.mk.inj h.definition
  exact ⟨hid, hschemaName, rfl, hroot, h.definitions⟩

/-- The schemas of definitions that are alike are equal without documentation. -/
lemma Definition.AllAlike.nodes_eq {ds es : List Definition} (h : AllAlike ds es) :
    (ds.map fun d => d.node.undocumented) = es.map fun e => e.node.undocumented := by
  have hnodes := congrArg (List.map (·.node)) h
  rwa [List.map_map, List.map_map] at hnodes

namespace Generator

variable (g : Generator) (title : TitlePolicy) (description : DescriptionPolicy)
  {registry other : Registry}

/-- The run under other settings for titles and descriptions. -/
def redocumented : Generator := { g with config := g.config.redocumented title description }

/-- On registries that are alike, a root has the same outcome but for documentation, the same is
found, and the registries after it are alike. -/
theorem document_alike (root : TypeName) (halike : registry.Alike other) :
    (g.document registry root).1.Alike ((g.redocumented title description).document other root).1 ∧
      (g.document registry root).2.1 =
        ((g.redocumented title description).document other root).2.1 ∧
      EndsAlike Eq Document.Alike (g.document registry root).2.2
        ((g.redocumented title description).document other root).2.2 := by
  have hbase : (g.redocumented title description).baseUri = g.baseUri := rfl
  have hextract : (g.redocumented title description).extract root = g.extract root := rfl
  unfold document
  rw [hbase, hextract]
  cases g.baseUri with
  | error failure => exact ⟨halike, rfl, .error rfl⟩
  | ok base =>
    dsimp only
    cases (g.extract root).result with
    | error failure => exact ⟨halike, rfl, .error rfl⟩
    | ok graph =>
      obtain ⟨hafter, hfindings, hroot⟩ :=
        Resolver.resolve_alike ⟨graph, g.config, base⟩ title description root halike
      refine ⟨hafter, congrArg ((g.extract root).findings ++ ·) hfindings, ?_⟩
      exact hroot.map fun first second h => h.document g.config.draft

/-- On registries that are alike, roots one after another have the same outcomes but for
documentation, and the same is found. -/
theorem documents_alike (roots : List TypeName) (halike : registry.Alike other) :
    (g.documents registry roots).2.1 =
        ((g.redocumented title description).documents other roots).2.1 ∧
      List.Forall₂ (fun first second => first.1 = second.1 ∧
          EndsAlike Eq Document.Alike first.2 second.2)
        (g.documents registry roots).2.2
        ((g.redocumented title description).documents other roots).2.2 := by
  induction roots generalizing registry other with
  | nil => exact ⟨rfl, .nil⟩
  | cons root rest ih =>
    obtain ⟨hafter, hfindings, hends⟩ := g.document_alike title description root halike
    obtain ⟨hlater, hrest⟩ := ih hafter
    refine ⟨?_, .cons ⟨rfl, hends⟩ hrest⟩
    simp only [documents]
    rw [hfindings, hlater]

/-- A run whose sessions go one after another has the same diagnostics under other documentation,
and its roots have the same outcomes but for documentation. -/
theorem generateAll_alike :
    g.generateAll.1.diagnostics = (g.redocumented title description).generateAll.1.diagnostics ∧
      EndsAlike Eq
        (List.Forall₂ fun first second => first.1 = second.1 ∧
          EndsAlike Eq Document.Alike first.2 second.2)
        g.generateAll.2 (g.redocumented title description).generateAll.2 := by
  have hempty : Registry.Alike {} {} := ⟨rfl, rfl⟩
  obtain ⟨hfindings, hresults⟩ := g.documents_alike title description g.unit.roots hempty
  cases hbase : g.config.baseUri with
  | none =>
    have hnone : g.generateAll = (g, .error (.invalidConfiguration .noBase)) := by
      simp [generateAll, baseUri, hbase]
    have hnone' : (g.redocumented title description).generateAll =
        (g.redocumented title description, .error (.invalidConfiguration .noBase)) := by
      simp [generateAll, baseUri, redocumented, Configuration.redocumented, hbase]
    rw [hnone, hnone']
    exact ⟨rfl, .error rfl⟩
  | some base =>
    have hbase' : (g.redocumented title description).config.baseUri = some base := hbase
    rw [generateAll_eq_documents hbase, generateAll_eq_documents hbase']
    refine ⟨?_, .ok hresults⟩
    exact congrArg (fun found => Diagnostic.snapshot (g.findings ++ found)) hfindings

/-- Whatever the settings for titles and descriptions, a root on a fresh registry has the same
findings, and it fails for the same reason or has a document with the same identifier and with the
same definitions in the same order.  Without titles and descriptions the root and the definitions
have the same schemas. -/
theorem document_redocumented (root : TypeName) :
    ((g.redocumented title description).document {} root).2.1 = (g.document {} root).2.1 ∧
      ((∃ failure, (g.document {} root).2.2 = .error failure ∧
          ((g.redocumented title description).document {} root).2.2 = .error failure) ∨
        ∃ d d', (g.document {} root).2.2 = .ok d ∧
          ((g.redocumented title description).document {} root).2.2 = .ok d' ∧
          d'.id = d.id ∧ d'.definitions.map (·.id) = d.definitions.map (·.id) ∧
          d'.root.undocumented = d.root.undocumented ∧
          (d'.definitions.map fun e => e.node.undocumented) =
            d.definitions.map fun e => e.node.undocumented) := by
  have hempty : Registry.Alike {} {} := ⟨rfl, rfl⟩
  obtain ⟨-, hfindings, hends⟩ := g.document_alike title description root hempty
  refine ⟨hfindings.symm, ?_⟩
  generalize (g.document {} root).2.2 = first at hends
  generalize ((g.redocumented title description).document {} root).2.2 = second at hends
  cases hends with
  | error hfailure => exact Or.inl ⟨_, rfl, congrArg Except.error hfailure.symm⟩
  | @ok d d' h =>
    exact Or.inr ⟨d, d', rfl, rfl, h.id.symm, h.definitions.ids_eq.symm, h.root.symm,
      h.definitions.nodes_eq.symm⟩

end Generator

end SchemaCompiler
