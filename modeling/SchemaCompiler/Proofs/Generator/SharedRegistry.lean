import Mathlib.Data.List.Induction
import SchemaCompiler.Generator
import SchemaCompiler.Proofs.Definition.Soundness

/-!
# The shared registry

The documents of a run are generated one after another with one registry.  `Generator.registryAfter`
is the registry after any sequence of roots, whether their documents succeed or fail.  It is sound
for the catalog of the run (`sound_registryAfter`), and the document of a root is read off it
(`exists_readOff`).

What this says of each registered definition is collected in `Generator.Keeps`.
-/

namespace SchemaCompiler.Generator

variable {g : Generator} {registry : Registry} {root : TypeName} {base : BaseUri}
  {graph : TypeGraph}

/-- The declarations that the types of a run are described from. -/
def source (g : Generator) : TypeSource := ⟨g.unit, g.config.allowAny⟩

/-- What the declarations and settings of a run determine once there is a base. -/
def catalog (g : Generator) (base : BaseUri) : Catalog := ⟨g.source, g.config, base⟩

/-- The registry after the documents of some roots, which succeed or fail. -/
def registryAfter (g : Generator) (roots : List TypeName) : Registry := (g.documents {} roots).1

/-! ### One document -/

/-- A root whose walk begins: there is a base, and the graph of the root can be extracted. -/
structure Prepared (g : Generator) (root : TypeName) (base : BaseUri) (graph : TypeGraph) :
    Prop where
  base : g.config.baseUri = some base
  extracted : (g.extract root).result = .ok graph

/-- The document of a root whose walk does not begin fails for the same reason with every registry,
and leaves it as it is. -/
lemma prepared_or (g : Generator) (root : TypeName) :
    (∃ base graph, g.Prepared root base graph) ∨
      ∃ failure, ∀ registry, (g.document registry root).1 = registry ∧
        (g.document registry root).2.2 = .error failure := by
  cases hbase : g.config.baseUri with
  | none =>
    refine Or.inr ⟨.invalidConfiguration .noBase, fun registry => ?_⟩
    simp [document, baseUri, hbase]
  | some base =>
    cases hextract : (g.extract root).result with
    | error failure =>
      refine Or.inr ⟨failure, fun registry => ?_⟩
      simp [document, baseUri, hbase, hextract]
    | ok graph => exact Or.inl ⟨base, graph, hbase, hextract⟩

namespace Prepared

/-- The graph of a prepared root is closed. -/
lemma closed (h : g.Prepared root base graph) : graph.Closed (g.catalog base).source :=
  (TypeGraph.Closed.of_extract h.extracted).1

/-- The document of a prepared root whose walk fails. -/
lemma document_of_stopped {stopped : Stopped} (h : g.Prepared root base graph)
    (hwalk : ((g.catalog base).resolver graph).walkFrom registry root = .error stopped) :
    (g.document registry root).1 = stopped.walk.registry ∧
      (g.document registry root).2.2 = .error stopped.failure := by
  have hwalk' : Resolver.walkFrom ⟨graph, g.config, base⟩ registry root = .error stopped := hwalk
  simp [document, baseUri, h.base, h.extracted, Resolver.resolve, hwalk', Except.map]

/-- The document of a prepared root whose walk succeeds is collected from the registry to which what
has been built is registered. -/
lemma document_of_walk {walk : Walk} (h : g.Prepared root base graph)
    (hwalk : ((g.catalog base).resolver graph).walkFrom registry root = .ok walk) :
    (g.document registry root).1 = walk.registry.registerAll walk.staged ∧
      (g.document registry root).2.2 =
        (Resolver.collect (walk.registry.registerAll walk.staged)
          ((g.catalog base).identifierOf root)).map (Document.ofRoot g.config.draft) := by
  have hstarts := Resolver.starts_of_walkFrom hwalk
  have hid : (((g.catalog base).resolver graph).described root).map
      ((g.catalog base).resolver graph).identifier = .ok ((g.catalog base).identifierOf root) := by
    cases hstarts with
    | built hname =>
      obtain ⟨-, ht, rfl⟩ := Catalog.described_eq_ok h.closed hname
      rw [hname, Catalog.identifierOf_of_describes ht]
      rfl
  have hwalk' : Resolver.walkFrom ⟨graph, g.config, base⟩ registry root = .ok walk := hwalk
  have hid' : (Resolver.described ⟨graph, g.config, base⟩ root).map
      (Resolver.identifier ⟨graph, g.config, base⟩) =
        .ok ((g.catalog base).identifierOf root) := hid
  simp [document, baseUri, h.base, h.extracted, Resolver.resolve, hwalk', hid', Except.bind]

end Prepared

/-- A document that succeeds has a walk that does. -/
lemma exists_walk {d : Document} (h : (g.document registry root).2.2 = .ok d) :
    ∃ base graph walk, g.Prepared root base graph ∧
      ((g.catalog base).resolver graph).walkFrom registry root = .ok walk := by
  rcases g.prepared_or root with ⟨base, graph, hprepared⟩ | ⟨failure, hfailure⟩
  · cases hwalk : ((g.catalog base).resolver graph).walkFrom registry root with
    | ok walk => exact ⟨base, graph, walk, hprepared, hwalk⟩
    | error stopped =>
      rw [(hprepared.document_of_stopped hwalk).2] at h
      cases h
  · rw [(hfailure registry).2] at h
    cases h

/-- Whether its document succeeds or fails, a root leaves a sound registry. -/
theorem sound_document (hbase : g.config.baseUri = some base)
    (hsound : registry.Sound (g.catalog base)) (root : TypeName) :
    (g.document registry root).1.Sound (g.catalog base) := by
  rcases g.prepared_or root with ⟨base', graph, hprepared⟩ | ⟨failure, hfailure⟩
  · obtain rfl : base' = base := Option.some.inj (hprepared.base.symm.trans hbase)
    cases hwalk : ((g.catalog base').resolver graph).walkFrom registry root with
    | ok walk =>
      rw [(hprepared.document_of_walk hwalk).1]
      exact (hsound.of_starts_ok hprepared.closed (Resolver.starts_of_walkFrom hwalk)).1
    | error stopped =>
      rw [(hprepared.document_of_stopped hwalk).1]
      exact hsound.of_starts hprepared.closed (Resolver.starts_of_walkFrom hwalk)
  · rw [(hfailure registry).1]
    exact hsound

/-! ### Documents read off a registry -/

/-- A document that consists of the definition of its root in a registry and of the definitions that
this one leads to there. -/
def ReadOff (g : Generator) (registry : Registry) (root : TypeName) (d : Document) : Prop :=
  ∃ e ∈ registry.definitions, e.typeName = root ∧
    ∃ ds, registry.Preorder [e.id] e.references ds ∧ d = Document.ofRoot g.config.draft ⟨e, ds⟩

/-- A walk that succeeds gives a document, which is read off the registry after it. -/
theorem exists_readOff {walk : Walk} (hprepared : g.Prepared root base graph)
    (hsound : registry.Sound (g.catalog base))
    (hwalk : ((g.catalog base).resolver graph).walkFrom registry root = .ok walk) :
    ∃ d, (g.document registry root).2.2 = .ok d ∧
      g.ReadOff (g.document registry root).1 root d := by
  have hstarts := Resolver.starts_of_walkFrom hwalk
  obtain ⟨hregistered, e, he, hroot⟩ := hsound.of_starts_ok hprepared.closed hstarts
  have hid : (g.catalog base).identifierOf root = e.id := by
    rw [← hroot, hregistered.identifierOf_typeName he]
  obtain ⟨hafter, hresult⟩ := hprepared.document_of_walk hwalk
  rw [hid] at hresult
  obtain ⟨resolved, hcollect⟩ := Registry.exists_collect hregistered.closedUnderReferences
    (Registry.contains_iff.mpr ⟨e, he, rfl⟩)
  obtain ⟨hget, hpreorder⟩ := Registry.collect_eq_ok_iff.mp hcollect
  rw [Registry.get?_of_mem hregistered.nodup he] at hget
  obtain rfl : e = resolved.definition := Option.some.inj hget
  refine ⟨Document.ofRoot g.config.draft resolved, ?_, resolved.definition, ?_, hroot,
    resolved.definitions, ?_, rfl⟩
  · rw [hresult, hcollect]
    rfl
  · rw [hafter]
    exact he
  · rw [hafter]
    exact hpreorder

/-- A document that succeeds is read off the registry after it. -/
theorem readOff_of_document {d : Document} (hbase : g.config.baseUri = some base)
    (hsound : registry.Sound (g.catalog base)) (h : (g.document registry root).2.2 = .ok d) :
    g.ReadOff (g.document registry root).1 root d := by
  obtain ⟨base', graph, walk, hprepared, hwalk⟩ := exists_walk h
  obtain rfl : base' = base := Option.some.inj (hprepared.base.symm.trans hbase)
  obtain ⟨d', hresult, hread⟩ := exists_readOff hprepared hsound hwalk
  rw [h] at hresult
  exact Except.ok.inj hresult ▸ hread

/-- A document that fails registers nothing, but it may have claimed identifiers. -/
theorem extends_of_document_eq_error {failure : Failure}
    (hsound : ∀ base, g.config.baseUri = some base → registry.Sound (g.catalog base))
    (h : (g.document registry root).2.2 = .error failure) :
    registry.Extends (g.document registry root).1 := by
  rcases g.prepared_or root with ⟨base, graph, hprepared⟩ | ⟨failure', hfailure⟩
  · cases hwalk : ((g.catalog base).resolver graph).walkFrom registry root with
    | ok walk =>
      obtain ⟨d, hd, -⟩ := exists_readOff hprepared (hsound base hprepared.base) hwalk
      rw [hd] at h
      cases h
    | error stopped =>
      have hstarts := Resolver.starts_of_walkFrom hwalk
      rw [(hprepared.document_of_stopped hwalk).1]
      exact hstarts.registry_extends
  · rw [(hfailure registry).1]

/-! ### Runs -/

/-- The registry after two sequences of documents is that of the second after the first. -/
lemma documents_append (g : Generator) (registry : Registry) (first second : List TypeName) :
    (g.documents registry (first ++ second)).1 =
      (g.documents (g.documents registry first).1 second).1 := by
  induction first generalizing registry with
  | nil => rfl
  | cons root first ih => exact ih (g.document registry root).1

/-- One more root continues from the registry after the others. -/
lemma registryAfter_concat (g : Generator) (roots : List TypeName) (root : TypeName) :
    g.registryAfter (roots ++ [root]) = (g.document (g.registryAfter roots) root).1 :=
  documents_append g {} roots [root]

/-- The registry after any sequence of documents is sound. -/
theorem sound_registryAfter (hbase : g.config.baseUri = some base) (roots : List TypeName) :
    (g.registryAfter roots).Sound (g.catalog base) := by
  induction roots using List.reverseRecOn with
  | nil => exact .empty
  | append_singleton roots root ih =>
    rw [registryAfter_concat]
    exact sound_document hbase ih root

/-- A document that succeeds after other ones is read off a sound registry. -/
lemma exists_sound_readOff {earlier : List TypeName} {d : Document}
    (h : (g.document (g.registryAfter earlier) root).2.2 = .ok d) :
    ∃ base after, g.config.baseUri = some base ∧ after.Sound (g.catalog base) ∧
      g.ReadOff after root d := by
  obtain ⟨base, graph, walk, hprepared, -⟩ := exists_walk h
  have hbefore := sound_registryAfter hprepared.base earlier
  exact ⟨base, _, hprepared.base, sound_document hprepared.base hbefore root,
    readOff_of_document hprepared.base hbefore h⟩

/-- Without a base nothing is ever registered. -/
lemma registryAfter_of_no_base (hbase : g.config.baseUri = none) (roots : List TypeName) :
    g.registryAfter roots = {} := by
  induction roots using List.reverseRecOn with
  | nil => rfl
  | append_singleton roots root ih =>
    rw [registryAfter_concat, ih]
    simp [document, baseUri, hbase]

/-! ### The invariant of the shared registry -/

/-- What a registry guarantees of a definition in it. -/
structure Keeps (g : Generator) (registry : Registry) (d : Definition) : Prop where
  /-- No placeholder is left in its schema. -/
  linked : d.node.mentions = []
  /-- Its references are the targets of its schema, each once. -/
  nodup : d.references.Nodup
  mem_references : ∀ id, id ∈ d.references ↔ id ∈ d.node.targets
  /-- What it refers to is registered. -/
  closed : ∀ id ∈ d.references, registry.contains id = true
  /-- It is stored under its own identifier, which is that of its schema name. -/
  stored : registry.get? d.id = some d
  canonical : ∃ base, g.config.baseUri = some base ∧ d.id = base.identifier d.schemaName
  /-- Its identifier belongs to its type. -/
  held : registry.owner? d.id = some d.typeName
  /-- Each placeholder of its type's schema was replaced by a reference to the definition of the
  type that the placeholder stands for. -/
  replaced : ∃ t target, g.source.Describes t ∧ t.name = d.typeName ∧
    d.node = (g.config.build t).link target ∧
    ∀ name ∈ (g.config.build t).mentions,
      ∃ e, registry.get? (target name) = some e ∧ e.typeName = name

/-- A sound registry keeps each of its definitions. -/
lemma keeps_of_sound (hbase : g.config.baseUri = some base)
    (hsound : registry.Sound (g.catalog base)) {d : Definition} (hd : d ∈ registry.definitions) :
    g.Keeps registry d := by
  obtain ⟨t, ht, rfl⟩ := hsound.canonical d hd
  refine ⟨Node.mentions_link _ _, Node.nodup_references _, fun id => List.mem_eraseDups,
    hsound.closedUnderReferences _ hd, Registry.get?_of_mem hsound.nodup hd, ⟨base, hbase, rfl⟩,
    hsound.held _ hd, t, (g.catalog base).identifierOf, ht, rfl, rfl, fun name hname => ?_⟩
  obtain ⟨e, he, hename, heid⟩ := hsound.exists_of_mentions ht hd hname
  exact ⟨e, heid ▸ Registry.get?_of_mem hsound.nodup he, hename⟩

/-- After any sequence of documents, which succeed or fail, the registry keeps each of its
definitions, and no document that fails changes them. -/
theorem registryAfter_keeps_definitions (g : Generator) (roots : List TypeName) :
    (∀ d ∈ (g.registryAfter roots).definitions, g.Keeps (g.registryAfter roots) d) ∧
      ∀ root failure, (g.document (g.registryAfter roots) root).2.2 = .error failure →
        (g.document (g.registryAfter roots) root).1.definitions =
          (g.registryAfter roots).definitions := by
  constructor
  · intro d hd
    cases hbase : g.config.baseUri with
    | none =>
      rw [registryAfter_of_no_base hbase] at hd
      exact absurd hd List.not_mem_nil
    | some base => exact keeps_of_sound hbase (sound_registryAfter hbase roots) hd
  · intro root failure h
    exact (extends_of_document_eq_error (fun base hbase => sound_registryAfter hbase roots)
      h).definitions

/-- The declarations of a tree, whose children are trees and which may have a label. -/
def forest : Generator where
  unit :=
    { types :=
      [ { name := .topLevel "" "Tree"
          declaration :=
            { name := "Tree"
              properties :=
                [ { name := "children", type := .list (.named "Tree") },
                  { name := "label", type := .nullable (.named "Label") } ] }
          origin := "" },
        { name := .topLevel "" "Label", declaration := { name := "Label" }, origin := "" } ] }
  config := { baseUri := some ⟨"https://example.com"⟩ }

/-- The tree, and a hedge in another package that has a label of its own under the same schema
name. -/
def hedge : Generator :=
  { forest with
    unit :=
      { types := forest.unit.types ++
        [ { name := .topLevel "garden" "Hedge"
            declaration :=
              { name := "Hedge", properties := [{ name := "label", type := .named "Label" }] }
            origin := "" },
          { name := .topLevel "garden" "Label"
            declaration := { name := "Label" }
            origin := "" } ] } }

/-- The tree is registered after its own document, although it refers to itself.  The hedge fails
then, since the label of the tree holds the identifier that it needs, and nothing is registered. -/
theorem keeps_hedge :
    (∃ d ∈ (hedge.registryAfter [.topLevel "" "Tree"]).definitions,
      d.typeName = .topLevel "" "Tree" ∧
        hedge.Keeps (hedge.registryAfter [.topLevel "" "Tree"]) d) ∧
    ∃ id, (hedge.document (hedge.registryAfter [.topLevel "" "Tree"])
        (.topLevel "garden" "Hedge")).2.2 =
          .error (.collision id (.topLevel "" "Label") (.topLevel "garden" "Label")) ∧
      (hedge.document (hedge.registryAfter [.topLevel "" "Tree"])
        (.topLevel "garden" "Hedge")).1.definitions =
          (hedge.registryAfter [.topLevel "" "Tree"]).definitions := by
  obtain ⟨hkeeps, hfailed⟩ := registryAfter_keeps_definitions hedge [.topLevel "" "Tree"]
  have hmem := List.mem_of_getElem? (i := 1)
    (rfl : (hedge.registryAfter [.topLevel "" "Tree"]).definitions[1]? = some _)
  exact ⟨⟨_, hmem, rfl, hkeeps _ hmem⟩, _, rfl, hfailed _ _ rfl⟩

end SchemaCompiler.Generator
