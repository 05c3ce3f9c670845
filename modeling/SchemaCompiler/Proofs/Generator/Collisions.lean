import SchemaCompiler.Proofs.Definition.Collision
import SchemaCompiler.Proofs.Generator.FailedRoots

/-!
# Collisions of identifiers

On its own, a declared root whose graph is extracted fails exactly if two distinct types that it
leads to have the same schema name, and it fails for such a collision only
(`document_eq_collision_iff`).

One direction is that a walk fails for collisions only, and that all identifiers that it finds taken
were claimed for types that the root leads to.  The other direction is that nothing is skipped: what
a successful walk registers has led to distinct identifiers.
-/

namespace SchemaCompiler.Generator

variable {g : Generator} {registry : Registry} {root : TypeName} {base : BaseUri}
  {graph : TypeGraph} {failure : Failure}

/-- Two distinct types that a root leads to have one schema name. -/
structure Clash (g : Generator) (base : BaseUri) (root : TypeName) (t u : TypeDescription) :
    Prop where
  describes : g.source.Describes t ∧ g.source.Describes u
  leads : (g.catalog base).Leads root t.name ∧ (g.catalog base).Leads root u.name
  name_ne : t.name ≠ u.name
  schemaName_eq : t.schemaName = u.schemaName

/-- The types that a root leads to have distinct identifiers exactly if no two of them clash. -/
lemma distinct_iff_not_clash :
    (g.catalog base).Distinct ((g.catalog base).Leads root) ↔ ¬∃ t u, g.Clash base root t u := by
  constructor
  · rintro hdistinct ⟨t, u, ⟨ht, hu⟩, ⟨hleadsT, hleadsU⟩, hne, hschemaName⟩
    exact hne (hdistinct t u ht hu hleadsT hleadsU (congrArg base.identifier hschemaName))
  · intro hclash t u ht hu hleadsT hleadsU hid
    by_contra hne
    exact hclash ⟨t, u, ⟨ht, hu⟩, ⟨hleadsT, hleadsU⟩, hne, base.identifier_injective hid⟩

/-- A walk that collides on its own has met two types that clash. -/
lemma clash_of_collides {stopped : Stopped}
    (hclaims : (g.catalog base).ClaimsFor ((g.catalog base).Leads root) {} stopped.walk.registry)
    (h : (g.catalog base).Collides ((g.catalog base).Leads root) stopped) :
    ∃ t u, g.Clash base root t u ∧
      stopped.failure = .collision (base.identifier t.schemaName) t.name u.name := by
  obtain ⟨u, owner, hu, hleadsU, hne, howner, hfailure⟩ := h
  rcases hclaims _ owner howner with hempty | ⟨t, ht, rfl, hid, hleadsT⟩
  · cases hempty
  · refine ⟨t, u, ⟨⟨ht, hu⟩, ⟨hleadsT, hleadsU⟩, hne, base.identifier_injective hid⟩, ?_⟩
    rw [hfailure, ← hid]
    rfl

/-- On its own a declared root whose graph is extracted fails for a clash only, which the failure
names. -/
lemma Prepared.clash_of_error (h : g.Prepared root base graph) (hroot : g.unit.Declares root)
    (hfailure : (g.document {} root).2.2 = .error failure) :
    ∃ t u, g.Clash base root t u ∧
      failure = .collision (base.identifier t.schemaName) t.name u.name := by
  cases hwalk : ((g.catalog base).resolver graph).walkFrom {} root with
  | ok walk =>
    obtain ⟨d, hd, -⟩ := exists_readOff h .empty hwalk
    rw [hd] at hfailure
    cases hfailure
  | error stopped =>
    rw [(h.document_of_stopped hwalk).2] at hfailure
    obtain rfl := Except.error.inj hfailure
    have hstarts := Resolver.starts_of_walkFrom hwalk
    have hcontains : graph.contains root = true := (TypeGraph.Closed.of_extract h.extracted).2 hroot
    exact clash_of_collides (Catalog.claimsFor_of_starts h.closed hstarts)
      (Catalog.collides_of_starts h.closed hcontains hstarts)

/-- With a base, a declared root whose graph is extracted fails on its own exactly if two distinct
types that it leads to, itself included, have one schema name.  The failure is their collision, and
there is no other failure. -/
theorem document_eq_collision_iff (g : Generator) {base : BaseUri} {graph : TypeGraph}
    {root : TypeName} (hbase : g.config.baseUri = some base)
    (hextracted : (g.extract root).result = .ok graph) (hroot : g.unit.Declares root) :
    ((∃ id first second, (g.document {} root).2.2 = .error (.collision id first second)) ↔
      ∃ t u, g.Clash base root t u) ∧
    ∀ failure, (g.document {} root).2.2 = .error failure →
      ∃ t u, g.Clash base root t u ∧
        failure = .collision (base.identifier t.schemaName) t.name u.name := by
  have hprepared : g.Prepared root base graph := ⟨hbase, hextracted⟩
  refine ⟨⟨?_, fun hclash => ?_⟩, fun failure => hprepared.clash_of_error hroot⟩
  · rintro ⟨id, first, second, hfailure⟩
    obtain ⟨t, u, hclash, -⟩ := hprepared.clash_of_error hroot hfailure
    exact ⟨t, u, hclash⟩
  · cases hresult : (g.document {} root).2.2 with
    | ok d =>
      -- The root is registered, so what it leads to has distinct identifiers.
      obtain ⟨e, he, rfl, -⟩ := readOff_of_document hbase .empty hresult
      have hdistinct := (sound_document hbase .empty e.typeName).distinct he
      exact absurd hclash (distinct_iff_not_clash.mp hdistinct)
    | error failure =>
      obtain ⟨t, u, -, rfl⟩ := hprepared.clash_of_error hroot hresult
      exact ⟨_, _, _, rfl⟩

/-- Of the two packages that declare a type of one name, the root that needs both types fails, and
the root that needs the second alone does not. -/
theorem clash_twoPackages : ∃ base both second,
    twoPackages.config.baseUri = some base ∧
    (twoPackages.extract (.topLevel "app" "Both")).result = .ok both ∧
    twoPackages.unit.Declares (.topLevel "app" "Both") ∧
    (twoPackages.extract (.topLevel "app" "Second")).result = .ok second ∧
    twoPackages.unit.Declares (.topLevel "app" "Second") ∧
    (∃ t u, twoPackages.Clash base (.topLevel "app" "Both") t u) ∧
    ¬∃ t u, twoPackages.Clash base (.topLevel "app" "Second") t u := by
  have hboth : twoPackages.unit.Declares (.topLevel "app" "Both") := ⟨_, rfl, rfl⟩
  have hsecond : twoPackages.unit.Declares (.topLevel "app" "Second") := ⟨_, rfl, rfl⟩
  refine ⟨_, _, _, rfl, rfl, hboth, rfl, hsecond, ?_, fun hclash => ?_⟩
  · exact (document_eq_collision_iff twoPackages rfl rfl hboth).1.mp ⟨_, _, _, rfl⟩
  · obtain ⟨id, first, second, hfailure⟩ :=
      (document_eq_collision_iff twoPackages rfl rfl hsecond).1.mpr hclash
    cases hfailure

end SchemaCompiler.Generator
