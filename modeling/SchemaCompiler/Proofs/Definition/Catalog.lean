import Mathlib.Logic.Relation
import SchemaCompiler.Proofs.Definition.Walk
import SchemaCompiler.Proofs.Schema.Placeholder

/-!
# The definitions of a run

What the declarations, the settings and the base determine before anything is generated: the
identifier and the definition of each described type (`Catalog.define`), and which types a schema
mentions (`Catalog.Mentions`).  A resolver works on the graph of one root.  On the types of its
graph its definitions are those of the catalog (`Catalog.define_resolver`), so the roots of a run
build equal definitions for the types that they share.
-/

namespace SchemaCompiler

/-- The declarations, settings and base of a run. -/
structure Catalog where
  source : TypeSource
  config : Configuration
  base : BaseUri

namespace Catalog

variable (c : Catalog)

/-- The identifier of a declared type. -/
def identifierOf (name : TypeName) : CanonicalId :=
  c.base.identifier
    (((c.source.unit.lookup? name.qualified).map TypeSource.schemaNameOf).getD name.chain)

/-- The definition of a described type. -/
def define (t : TypeDescription) : Definition where
  id := c.base.identifier t.schemaName
  typeName := t.name
  schemaName := t.schemaName
  node := (c.config.build t).link c.identifierOf
  references := ((c.config.build t).link c.identifierOf).references

/-- The schema of the first type has a placeholder for the second. -/
def Mentions (first second : TypeName) : Prop :=
  ∃ t, c.source.Describes t ∧ t.name = first ∧ second ∈ (c.config.build t).mentions

/-- The second type is met from the first by following placeholders. -/
def Leads : TypeName → TypeName → Prop := Relation.ReflTransGen c.Mentions

/-- The resolver of a graph. -/
def resolver (graph : TypeGraph) : Resolver := ⟨graph, c.config, c.base⟩

variable {c} {graph : TypeGraph} {t : TypeDescription} {name : TypeName}

/-- A described type has the identifier of its schema name. -/
lemma identifierOf_of_describes (ht : c.source.Describes t) :
    c.identifierOf t.name = c.base.identifier t.schemaName := by
  obtain ⟨declared, hlookup, -, hdescribe⟩ := ht
  rw [identifierOf, hlookup, (TypeSource.describe_eq_ok hdescribe).2.1]
  rfl

/-- A described type mentions exactly the placeholders of its schema. -/
lemma mentions_iff (ht : c.source.Describes t) :
    c.Mentions t.name name ↔ name ∈ (c.config.build t).mentions := by
  constructor
  · rintro ⟨u, hu, hname, hmem⟩
    rwa [hu.unique ht hname] at hmem
  · intro hmem
    exact ⟨t, ht, rfl, hmem⟩

/-! ### The graph of a root -/

/-- What a name is described as in a closed graph is its description. -/
lemma described_eq_ok (hgraph : graph.Closed c.source)
    (h : (c.resolver graph).described name = .ok t) :
    t ∈ graph.types ∧ c.source.Describes t ∧ t.name = name := by
  obtain ⟨hmem, hname⟩ := TypeGraph.mem_of_get? (Resolver.described_eq_ok_iff.mp h)
  exact ⟨hmem, hgraph.described t hmem, hname⟩

/-- A type that a graph contains is described. -/
lemma exists_described (hcontains : graph.contains name = true) :
    ∃ t, (c.resolver graph).described name = .ok t := by
  obtain ⟨t, ht⟩ := TypeGraph.exists_get? hcontains
  exact ⟨t, Resolver.described_eq_ok_iff.mpr ht⟩

/-- A closed graph contains the types that the schemas of its types mention. -/
lemma contains_of_mentions (hgraph : graph.Closed c.source) {first second : TypeName}
    (hfirst : graph.contains first = true) (h : c.Mentions first second) :
    graph.contains second = true := by
  obtain ⟨t, ht, hname, hmem⟩ := h
  obtain ⟨u, hu⟩ := TypeGraph.exists_get? hfirst
  obtain ⟨humem, huname⟩ := TypeGraph.mem_of_get? hu
  have heq : u = t := (hgraph.described u humem).unique ht (huname.trans hname.symm)
  exact hgraph.contains_mention u humem second
    (heq ▸ (Configuration.build_within c.config t).mentions hmem)

/-- A closed graph contains the types that the types in it lead to. -/
lemma contains_of_leads (hgraph : graph.Closed c.source) {first second : TypeName}
    (hfirst : graph.contains first = true) (h : c.Leads first second) :
    graph.contains second = true := by
  induction h with
  | refl => exact hfirst
  | tail _ hmentions ih => exact contains_of_mentions hgraph ih hmentions

/-- A resolver gives the types of a closed graph their identifiers. -/
lemma identifierOf_resolver (hgraph : graph.Closed c.source)
    (hcontains : graph.contains name = true) :
    (c.resolver graph).identifierOf name = c.identifierOf name := by
  obtain ⟨t, ht⟩ := TypeGraph.exists_get? hcontains
  obtain ⟨hmem, rfl⟩ := TypeGraph.mem_of_get? ht
  rw [identifierOf_of_describes (hgraph.described t hmem), Resolver.identifierOf]
  show c.base.identifier (((graph.get? t.name).map (·.schemaName)).getD t.name.chain) = _
  rw [ht]
  rfl

/-- A resolver defines the types of a closed graph as the catalog does. -/
theorem define_resolver (hgraph : graph.Closed c.source) (ht : t ∈ graph.types) :
    (c.resolver graph).define t = c.define t := by
  have hlink : (c.config.build t).link (c.resolver graph).identifierOf =
      (c.config.build t).link c.identifierOf := by
    refine Node.link_congr _ fun name hname => identifierOf_resolver hgraph ?_
    exact hgraph.contains_mention t ht name
      ((Configuration.build_within c.config t).mentions hname)
  simp only [Resolver.define, define, resolver] at hlink ⊢
  rw [hlink]
  rfl

/-! ### Definitions -/

/-- A definition is stored under the identifier of its type. -/
lemma id_define (ht : c.source.Describes t) : (c.define t).id = c.identifierOf t.name :=
  (identifierOf_of_describes ht).symm

/-- The references of a definition are the identifiers of the types that its schema mentions, each
where it is mentioned first. -/
lemma references_define :
    (c.define t).references = ((c.config.build t).mentions.map c.identifierOf).eraseDups := by
  have htargets :=
    Node.targets_link c.identifierOf _ (Configuration.build_within c.config t).targets
  rw [define, Node.references, htargets]

/-- The references of a definition are those of the types that its schema mentions. -/
lemma mem_references_define {id : CanonicalId} :
    id ∈ (c.define t).references ↔
      ∃ name ∈ (c.config.build t).mentions, c.identifierOf name = id := by
  rw [references_define, List.mem_eraseDups, List.mem_map]

end Catalog

end SchemaCompiler
