import SchemaCompiler.Proofs.Generator.Sessions
import SchemaCompiler.Proofs.TypeGraph.Exploration

/-!
# Schema names of the documents of a run

A root whose document succeeds holds the identifier of the document for the rest of the run, in
whatever order the sessions take their steps.  So no other root has a document under the same schema
name (`Generator.eq_of_schemaName_eq`).
-/

namespace SchemaCompiler.Generator

variable {g : Generator} {registry : Registry} {root : TypeName} {base : BaseUri} {d : Document}
  {turns : List ℕ}

/-- What a document that succeeds says of its root: the root holds the identifier of the document,
which is that of a valid schema name. -/
structure Holds (registry : Registry) (base : BaseUri) (root : TypeName) (d : Document) :
    Prop where
  owner : registry.owner? d.id = some root
  canonical : d.id = base.identifier d.schemaName
  valid : SchemaName.isValid d.schemaName = true

/-- A document that is read off a sound registry is held by its root. -/
lemma ReadOff.holds (hsound : registry.Sound (g.catalog base)) (h : g.ReadOff registry root d) :
    Holds registry base root d := by
  obtain ⟨e, he, rfl, ds, -, rfl⟩ := h
  have howner := hsound.held e he
  obtain ⟨t, ht, rfl⟩ := hsound.canonical e he
  exact ⟨howner, rfl, ht.wellFormed.1⟩

/-- The documents of a run are held by their roots in the end. -/
theorem holds_of_mem_results (hunit : g.unit.Distinct) (hbase : g.config.baseUri = some base)
    (h : (root, .ok d) ∈ g.results turns) : Holds (g.answers turns).1 base root d := by
  obtain ⟨-, seen, hsound, hseen, hread⟩ := settles_of_mem_results hunit hbase h
  have hholds := hread.holds hsound
  exact { hholds with owner := hseen.owner hholds.owner }

/-- Roots with documents under one schema name are the same. -/
theorem eq_of_schemaName_eq (hunit : g.unit.Distinct) (hbase : g.config.baseUri = some base)
    {other : TypeName} {d' : Document} (h : (root, .ok d) ∈ g.results turns)
    (h' : (other, .ok d') ∈ g.results turns) (hname : d.schemaName = d'.schemaName) :
    root = other := by
  have hholds := holds_of_mem_results hunit hbase h
  have hholds' := holds_of_mem_results hunit hbase h'
  have hid : d.id = d'.id := by rw [hholds.canonical, hholds'.canonical, hname]
  have howner := hholds.owner
  rw [hid, hholds'.owner] at howner
  exact (Option.some.inj howner).symm

end SchemaCompiler.Generator
