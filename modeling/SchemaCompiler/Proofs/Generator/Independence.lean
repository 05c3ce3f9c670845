import SchemaCompiler.Proofs.Definition.Collision
import SchemaCompiler.Proofs.Generator.SharedRegistry

/-!
# Documents do not depend on earlier roots

What a run has registered before does not show in a document: if a root has a document after other
roots, it has the same document on its own (`document_eq_of_registryAfter`).  The walk on its own
cannot collide, because the identifiers of all types that the root leads to are registered after the
shared walk, each for one type.  Both documents are read off sound registries, in which equal types
have equal definitions (`ReadOff.unique`).

The converse fails where earlier roots have claimed an identifier for another type, which cannot
happen when different types have different schema names.
-/

namespace SchemaCompiler.Generator

variable {g : Generator} {root : TypeName} {base : BaseUri} {first second registry : Registry}

/-- The documents of a root that are read off two sound registries of a run are equal. -/
theorem ReadOff.unique (hfirst : first.Sound (g.catalog base))
    (hsecond : second.Sound (g.catalog base)) {d d' : Document} (h : g.ReadOff first root d)
    (h' : g.ReadOff second root d') : d = d' := by
  obtain ⟨e, he, hname, ds, hds, rfl⟩ := h
  obtain ⟨e', he', hname', ds', hds', rfl⟩ := h'
  obtain rfl := hfirst.eq_of_typeName hsecond he he' (hname.trans hname'.symm)
  have hsame := hfirst.preorder hsecond he he' hds
  rw [hsame.unique hds']

/-- A root whose document succeeds is described in its graph. -/
lemma contains_of_walk {graph : TypeGraph} {walk : Walk}
    (hwalk : ((g.catalog base).resolver graph).walkFrom registry root = .ok walk) :
    graph.contains root = true := by
  have hstarts := Resolver.starts_of_walkFrom hwalk
  cases hstarts with
  | built hname =>
    obtain ⟨hmem, hname⟩ := TypeGraph.mem_of_get? (Resolver.described_eq_ok_iff.mp hname)
    exact TypeGraph.contains_iff.mpr (hname ▸ List.mem_map_of_mem hmem)

/-- A document that succeeds with one sound registry succeeds with another that does not obstruct
its root, if the types that the root leads to have distinct identifiers, and it is the same
document. -/
theorem document_eq_of_unobstructed {d : Document} (hbase : g.config.baseUri = some base)
    (hfirst : first.Sound (g.catalog base)) (hsecond : second.Sound (g.catalog base))
    (hdistinct : (g.catalog base).Distinct ((g.catalog base).Leads root))
    (hfree : (g.catalog base).Unobstructed ((g.catalog base).Leads root) second)
    (h : (g.document first root).2.2 = .ok d) : (g.document second root).2.2 = .ok d := by
  obtain ⟨base', graph, walk, hprepared, hwalk⟩ := exists_walk h
  obtain rfl : base' = base := Option.some.inj (hprepared.base.symm.trans hbase)
  obtain ⟨walk', hwalk'⟩ := Catalog.exists_walk_of_starts hprepared.closed (contains_of_walk hwalk)
    hdistinct hfree (Resolver.starts_walkFrom second root)
  obtain ⟨d', hd', hread'⟩ := exists_readOff hprepared hsecond hwalk'
  have hread := readOff_of_document hbase hfirst h
  have hafter := sound_document hbase hfirst root
  have hafter' := sound_document hbase hsecond root
  rw [hd', hread.unique hafter hafter' hread']

/-- A root that has a document after other roots, which succeeded or failed, has the same document
on its own.  If types of different names have different schema names, a root that has a document on
its own has the same document after other roots. -/
theorem document_eq_of_registryAfter (g : Generator) (earlier : List TypeName) (root : TypeName) :
    (∀ d, (g.document (g.registryAfter earlier) root).2.2 = .ok d →
      (g.document {} root).2.2 = .ok d) ∧
    ((∀ t ∈ g.unit.types, ∀ u ∈ g.unit.types,
        TypeSource.schemaNameOf t = TypeSource.schemaNameOf u → t.name = u.name) →
      ∀ d, (g.document {} root).2.2 = .ok d →
        (g.document (g.registryAfter earlier) root).2.2 = .ok d) := by
  cases hbase : g.config.baseUri with
  | none =>
    rw [registryAfter_of_no_base hbase]
    exact ⟨fun d hd => hd, fun _ d hd => hd⟩
  | some base =>
    have hshared := sound_registryAfter hbase earlier
    constructor
    · intro d hd
      -- The root is registered afterwards, so what it leads to has distinct identifiers.
      obtain ⟨e, he, rfl, -⟩ := readOff_of_document hbase hshared hd
      have hdistinct := (sound_document hbase hshared e.typeName).distinct he
      exact document_eq_of_unobstructed hbase hshared .empty hdistinct Catalog.unobstructed_empty hd
    · intro hnames d hd
      have hall : ∀ {names : TypeName → Prop}, (g.catalog base).Distinct names :=
        Catalog.distinct_of_schemaName hnames
      exact document_eq_of_unobstructed hbase .empty hshared hall
        (Catalog.unobstructed_of_sound hall hshared) hd

/-- The tree has the same document after its label as on its own, and on its own as after its
label. -/
theorem document_forest_eq :
    (∃ d, (forest.document (forest.registryAfter [.topLevel "" "Label"])
          (.topLevel "" "Tree")).2.2 = .ok d ∧
        (forest.document {} (.topLevel "" "Tree")).2.2 = .ok d) ∧
      (∀ t ∈ forest.unit.types, ∀ u ∈ forest.unit.types,
        TypeSource.schemaNameOf t = TypeSource.schemaNameOf u → t.name = u.name) ∧
      ∃ d, (forest.document {} (.topLevel "" "Tree")).2.2 = .ok d ∧
        (forest.document (forest.registryAfter [.topLevel "" "Label"])
          (.topLevel "" "Tree")).2.2 = .ok d := by
  obtain ⟨halone, hshared⟩ :=
    document_eq_of_registryAfter forest [.topLevel "" "Label"] (.topLevel "" "Tree")
  have hnames : ∀ t ∈ forest.unit.types, ∀ u ∈ forest.unit.types,
      TypeSource.schemaNameOf t = TypeSource.schemaNameOf u → t.name = u.name := by decide
  exact ⟨⟨_, rfl, halone _ rfl⟩, hnames, ⟨_, rfl, hshared hnames _ rfl⟩⟩

end SchemaCompiler.Generator
