import SchemaCompiler.Proofs.Definition.Collision
import SchemaCompiler.Proofs.Definition.Findings
import SchemaCompiler.Proofs.Diagnostic
import SchemaCompiler.Proofs.Generator.FailedRoots

/-!
# Findings of a run

Which root of a run builds a shared type depends on the order of the roots, and a type can be built
more than once.  If types of different names have different schema names, this does not show in what
is found: a run finds what the extraction of its roots finds, and what is found in the types that
these roots need (`mem_findings_documents_iff`).  So the report of a run depends on the set of its
roots alone (`diagnostics_eq_of_mem_iff`).

The invariant of a run is `Covers`: whatever is found in a registered type has been found.  A type
that is skipped because it is registered therefore has nothing new to report.
-/

namespace SchemaCompiler

/-- A name that leads to a described type is declared. -/
lemma Catalog.declares_of_leads {c : Catalog} {first : TypeName} {t : TypeDescription}
    (ht : c.source.Describes t) (h : c.Leads first t.name) : c.source.unit.Declares first := by
  rcases Relation.ReflTransGen.cases_head h with rfl | ⟨second, ⟨u, hu, rfl, -⟩, -⟩
  · exact ht.declares
  · exact hu.declares

namespace Generator

variable {g : Generator} {registry : Registry} {root : TypeName} {base : BaseUri}
  {graph : TypeGraph} {types : List TypeDescription} {found : List Diagnostic} {d : Diagnostic}

/-! ### What a root needs -/

/-- A type that a root leads to, provided that the graph of the root can be extracted. -/
structure Needs (g : Generator) (base : BaseUri) (root : TypeName) (t : TypeDescription) :
    Prop where
  extracted : ∃ graph, (g.extract root).result = .ok graph
  describes : g.source.Describes t
  leads : (g.catalog base).Leads root t.name

/-- What a root finds with every registry: what its extraction finds, whether it succeeds or fails,
and what is found in the types that it needs. -/
def Finds (g : Generator) (base : BaseUri) (root : TypeName) (d : Diagnostic) : Prop :=
  d ∈ (g.extract root).findings ∨ ∃ t, g.Needs base root t ∧ d ∈ g.config.buildFindings t

/-- A root that needs a type is declared. -/
lemma Needs.declares {t : TypeDescription} (h : g.Needs base root t) : g.unit.Declares root :=
  Catalog.declares_of_leads (c := g.catalog base) h.describes h.leads

/-! ### One document -/

/-- The document of a root builds some types that the root needs: it reports what is found in them,
and it registers no others. -/
structure Builds (g : Generator) (base : BaseUri) (registry : Registry) (root : TypeName)
    (types : List TypeDescription) : Prop where
  needs : ∀ t ∈ types, g.Needs base root t
  mem_findings : ∀ d, d ∈ (g.document registry root).2.1 ↔
    d ∈ (g.extract root).findings ∨ ∃ t ∈ types, d ∈ g.config.buildFindings t
  registered : ∀ e ∈ (g.document registry root).1.definitions,
    e ∈ registry.definitions ∨ ∃ t ∈ types, e = (g.catalog base).define t

/-- A document that reports what the extraction finds and registers nothing builds no types. -/
lemma Builds.nothing (hfindings : (g.document registry root).2.1 = (g.extract root).findings)
    (hregistered : (g.document registry root).1.definitions = registry.definitions) :
    g.Builds base registry root [] where
  needs := nofun
  mem_findings d := by simp [hfindings]
  registered e he := Or.inl (hregistered ▸ he)

namespace Prepared

/-- A prepared root finds what its extraction finds, and then what its resolution finds. -/
lemma findings_document (h : g.Prepared root base graph) :
    (g.document registry root).2.1 = (g.extract root).findings ++
      (((g.catalog base).resolver graph).resolve registry root).2.1 := by
  simp only [document, baseUri, h.base, h.extracted]
  rfl

/-- The document of a prepared root whose walk succeeds builds the types of the walk. -/
lemma builds_of_walk {walk : Walk} (h : g.Prepared root base graph)
    (hwalk : ((g.catalog base).resolver graph).walkFrom registry root = .ok walk) :
    ∃ types, g.Builds base registry root types := by
  have hstarts := Resolver.starts_of_walkFrom hwalk
  obtain ⟨types, hbuilt⟩ := Catalog.exists_built_of_starts h.closed hstarts
  have hregistry : walk.registry.definitions = registry.definitions :=
    hstarts.registry_extends.definitions
  refine ⟨types, fun t ht => ?_, fun d => ?_, fun e he => ?_⟩
  · obtain ⟨hdescribes, hleads⟩ := hbuilt.described t ht
    exact ⟨⟨graph, h.extracted⟩, hdescribes, hleads⟩
  · rw [h.findings_document, Resolver.resolve, hwalk, List.mem_append, hbuilt.findings.mem_iff,
      List.nil_append, List.mem_flatMap]
    rfl
  · rw [(h.document_of_walk hwalk).1, hbuilt.staged, List.nil_append] at he
    rcases Registry.mem_of_mem_registerAll he with hbefore | hnew
    · exact Or.inl (hregistry ▸ hbefore)
    · obtain ⟨t, ht, rfl⟩ := List.mem_map.mp hnew
      exact Or.inr ⟨t, ht, rfl⟩

/-- The walk of a prepared root that its graph does not contain fails at once. -/
lemma builds_of_not_contains (h : g.Prepared root base graph)
    (hcontains : graph.contains root = false) : g.Builds base registry root [] := by
  have hget : graph.get? root = none := by
    by_contra hsome
    obtain ⟨t, ht⟩ := Option.ne_none_iff_exists'.mp hsome
    obtain ⟨hmem, hname⟩ := TypeGraph.mem_of_get? ht
    rw [TypeGraph.contains_iff.mpr (hname ▸ List.mem_map_of_mem hmem)] at hcontains
    cases hcontains
  have hwalk : ((g.catalog base).resolver graph).walkFrom registry root =
      .error ⟨{ registry }, .unsupported root.qualified "" .notExtracted⟩ := by
    simp [Resolver.walkFrom, Resolver.described, Catalog.resolver, hget]
  refine .nothing ?_ ?_
  · rw [h.findings_document, Resolver.resolve, hwalk, List.append_nil]
  · rw [(h.document_of_stopped hwalk).1]

end Prepared

/-! ### Runs -/

/-- What is found in the registered types has been found. -/
def Covers (g : Generator) (registry : Registry) (found : List Diagnostic) : Prop :=
  ∀ e ∈ registry.definitions, ∀ t, g.source.Describes t → t.name = e.typeName →
    ∀ d ∈ g.config.buildFindings t, d ∈ found

/-- Nothing has to be found for an empty registry. -/
lemma Covers.empty : g.Covers {} found := nofun

/-- What a document registers it has reported on. -/
lemma Covers.document (h : g.Covers registry found) (hbuilds : g.Builds base registry root types) :
    g.Covers (g.document registry root).1 (found ++ (g.document registry root).2.1) := by
  intro e he t ht hname d hd
  rcases hbuilds.registered e he with hbefore | ⟨u, hu, rfl⟩
  · exact List.mem_append_left _ (h e hbefore t ht hname d hd)
  · obtain rfl : t = u := ht.unique (hbuilds.needs u hu).describes hname
    exact List.mem_append_right _ ((hbuilds.mem_findings d).mpr (Or.inr ⟨t, hu, hd⟩))

section Distinct

variable (hbase : g.config.baseUri = some base)
  (hdistinct : ∀ {names : TypeName → Prop}, (g.catalog base).Distinct names)
  (hsound : registry.Sound (g.catalog base))

include hdistinct hsound

/-- If the types of a run have distinct identifiers, then nothing can stop the walk of a root. -/
lemma Prepared.exists_walkFrom (h : g.Prepared root base graph)
    (hcontains : graph.contains root = true) :
    ∃ walk, ((g.catalog base).resolver graph).walkFrom registry root = .ok walk :=
  Catalog.exists_walk_of_starts h.closed hcontains hdistinct
    (Catalog.unobstructed_of_sound hdistinct hsound) (Resolver.starts_walkFrom registry root)

include hbase

/-- If the types of a run have distinct identifiers, then the document of a root builds some of the
types that the root needs. -/
theorem exists_builds (root : TypeName) :
    ∃ types, g.Builds base registry root types := by
  cases hextract : (g.extract root).result with
  | error failure =>
    refine ⟨[], .nothing ?_ ?_⟩ <;> simp [document, baseUri, hbase, hextract]
  | ok graph =>
    have hprepared : g.Prepared root base graph := ⟨hbase, hextract⟩
    cases hcontains : graph.contains root with
    | false => exact ⟨[], hprepared.builds_of_not_contains hcontains⟩
    | true =>
      obtain ⟨walk, hwalk⟩ := hprepared.exists_walkFrom hdistinct hsound hcontains
      exact hprepared.builds_of_walk hwalk

/-- If the types of a run have distinct identifiers, then all types that a root needs are registered
after its document. -/
theorem exists_registered_of_needs {t : TypeDescription} (ht : g.Needs base root t) :
    ∃ e ∈ (g.document registry root).1.definitions, e.typeName = t.name := by
  obtain ⟨graph, hextract⟩ := ht.extracted
  have hprepared : g.Prepared root base graph := ⟨hbase, hextract⟩
  have hcontains : graph.contains root = true :=
    (TypeGraph.Closed.of_extract hextract).2 ht.declares
  obtain ⟨walk, hwalk⟩ := hprepared.exists_walkFrom hdistinct hsound hcontains
  obtain ⟨-, -, e, he, rfl, -⟩ := exists_readOff hprepared hsound hwalk
  exact (sound_document hbase hsound _).exists_of_leads he ht.leads

/-- With a registry on which everything is reported, a document adds what its root finds. -/
theorem mem_found_document_iff (hcovers : g.Covers registry found) :
    d ∈ found ++ (g.document registry root).2.1 ↔ d ∈ found ∨ g.Finds base root d := by
  obtain ⟨types, hbuilds⟩ := exists_builds hbase hdistinct hsound root
  constructor
  · intro hd
    refine (List.mem_append.mp hd).imp_right fun hnew => ?_
    refine ((hbuilds.mem_findings d).mp hnew).imp_right ?_
    rintro ⟨t, ht, hd⟩
    exact ⟨t, hbuilds.needs t ht, hd⟩
  · rintro (hd | hd | ⟨t, ht, hd⟩)
    · exact List.mem_append_left _ hd
    · exact List.mem_append_right _ ((hbuilds.mem_findings d).mpr (Or.inl hd))
    · -- The type is registered in the end, whichever root has built it.
      obtain ⟨e, he, hname⟩ := exists_registered_of_needs hbase hdistinct hsound ht
      exact hcovers.document hbuilds e he t ht.describes hname.symm d hd

/-- With a registry on which everything is reported, documents add what their roots find. -/
theorem mem_found_documents_iff {roots : List TypeName} (hcovers : g.Covers registry found) :
    d ∈ found ++ (g.documents registry roots).2.1 ↔
      d ∈ found ∨ ∃ root ∈ roots, g.Finds base root d := by
  induction roots generalizing registry found with
  | nil => simp [documents]
  | cons root roots ih =>
    obtain ⟨types, hbuilds⟩ := exists_builds hbase hdistinct hsound root
    have hrest := ih (sound_document hbase hsound root) (hcovers.document hbuilds)
    rw [List.append_assoc] at hrest
    rw [List.exists_mem_cons_iff, ← or_assoc,
      ← mem_found_document_iff hbase hdistinct hsound hcovers]
    exact hrest

end Distinct

/-- If types of different names have different schema names, a run finds what its roots find. -/
theorem mem_findings_documents_iff (hbase : g.config.baseUri = some base)
    (hnames : ∀ t ∈ g.unit.types, ∀ u ∈ g.unit.types,
      TypeSource.schemaNameOf t = TypeSource.schemaNameOf u → t.name = u.name)
    {roots : List TypeName} :
    d ∈ (g.documents {} roots).2.1 ↔ ∃ root ∈ roots, g.Finds base root d := by
  have h : d ∈ [] ++ (g.documents {} roots).2.1 ↔ d ∈ [] ∨ ∃ root ∈ roots, g.Finds base root d :=
    mem_found_documents_iff hbase (Catalog.distinct_of_schemaName hnames) .empty .empty
  simpa only [List.nil_append, List.not_mem_nil, false_or] using h

/-- Without a base a run finds nothing. -/
lemma findings_documents_of_no_base (hbase : g.config.baseUri = none) (roots : List TypeName) :
    (g.documents registry roots).2.1 = [] := by
  induction roots generalizing registry with
  | nil => rfl
  | cons root roots ih =>
    have hdocument : (g.document registry root).2.1 = [] := by simp [document, baseUri, hbase]
    show (g.document registry root).2.1 ++ _ = []
    rw [hdocument, ih, List.append_nil]

/-- If types of different names have different schema names, then runs over the same roots, in
whatever order and however often, have the same report.  Every report is strictly increasing, holds
exactly what was found, and depends on this set alone. -/
theorem diagnostics_eq_of_mem_iff (g : Generator) :
    ((∀ t ∈ g.unit.types, ∀ u ∈ g.unit.types,
        TypeSource.schemaNameOf t = TypeSource.schemaNameOf u → t.name = u.name) →
      ∀ first second : List TypeName, (∀ root, root ∈ first ↔ root ∈ second) →
        (g.withFindings (g.documents {} first).2.1).diagnostics =
          (g.withFindings (g.documents {} second).2.1).diagnostics) ∧
    ∀ found, (Diagnostic.snapshot found).Pairwise Diagnostic.Precedes ∧
      (∀ d, d ∈ Diagnostic.snapshot found ↔ d ∈ found) ∧
      ∀ found', (∀ d, d ∈ found ↔ d ∈ found') →
        Diagnostic.snapshot found = Diagnostic.snapshot found' := by
  refine ⟨fun hnames first second hroots => ?_, fun found => ?_⟩
  · have hfound : ∀ d, d ∈ (g.documents {} first).2.1 ↔ d ∈ (g.documents {} second).2.1 := by
      intro d
      cases hbase : g.config.baseUri with
      | none => rw [findings_documents_of_no_base hbase, findings_documents_of_no_base hbase]
      | some base =>
        rw [mem_findings_documents_iff hbase hnames, mem_findings_documents_iff hbase hnames]
        simp only [hroots]
    refine Diagnostic.snapshot_congr fun d => ?_
    simp only [withFindings, List.mem_append, hfound]
  · exact ⟨Diagnostic.pairwise_snapshot found, fun d => Diagnostic.mem_snapshot_iff,
      fun found' => Diagnostic.snapshot_congr⟩

/-- A farm with a shared type whose constraint is unknown.  The extraction of its ghost fails after
a finding. -/
def farm : Generator where
  unit :=
    { types :=
      [ referringType (.topLevel "" "Barn") ["Cow"],
        referringType (.topLevel "" "Field") ["Cow"],
        { name := .topLevel "" "Cow"
          declaration :=
            { name := "Cow"
              properties :=
                [{ name := "age", type := .scalar .string, constraints := [.unknown "mature"] }] }
          origin := "" },
        { name := .topLevel "" "Ghost"
          declaration :=
            { name := "Ghost"
              additionalProperties := some (.named "Nobody")
              ignoreProperties := ["shadow"] }
          origin := "" } ] }
  config := { baseUri := some ⟨"https://example.com"⟩ }

/-- The roots of the farm, in some order. -/
def farmRoots : List TypeName :=
  [.topLevel "" "Barn", .topLevel "" "Field", .topLevel "" "Ghost"]

/-- The farm has one report whichever of its roots comes first, and although one of them fails. -/
theorem diagnostics_farm_eq :
    (∀ t ∈ farm.unit.types, ∀ u ∈ farm.unit.types,
      TypeSource.schemaNameOf t = TypeSource.schemaNameOf u → t.name = u.name) ∧
    (∀ root, root ∈ farmRoots ↔ root ∈ farmRoots.reverse) ∧
    (∃ failure, (farm.document {} (.topLevel "" "Ghost")).2.2 = .error failure) ∧
    (farm.withFindings (farm.documents {} farmRoots).2.1).diagnostics =
      [ ⟨.unknownConstraint, "Cow.age", "constraint 'mature' has no schema mapping"⟩,
        ⟨.unresolvedFilter, "Ghost", "property filter 'shadow' matches no property"⟩ ] ∧
    (farm.withFindings (farm.documents {} farmRoots).2.1).diagnostics =
      (farm.withFindings (farm.documents {} farmRoots.reverse).2.1).diagnostics ∧
    Diagnostic.snapshot (farm.documents {} farmRoots).2.1 =
      Diagnostic.snapshot (farm.documents {} farmRoots).2.1.reverse := by
  have hnames : ∀ t ∈ farm.unit.types, ∀ u ∈ farm.unit.types,
      TypeSource.schemaNameOf t = TypeSource.schemaNameOf u → t.name = u.name := by decide
  have hroots : ∀ root, root ∈ farmRoots ↔ root ∈ farmRoots.reverse :=
    fun root => List.mem_reverse.symm
  obtain ⟨hruns, hsnapshots⟩ := diagnostics_eq_of_mem_iff farm
  refine ⟨hnames, hroots, ⟨_, rfl⟩, rfl, hruns hnames _ _ hroots, ?_⟩
  exact (hsnapshots _).2.2 _ fun d => List.mem_reverse.symm

end Generator

end SchemaCompiler
