import SchemaCompiler.Proofs.Definition.Soundness

/-!
# Collisions of walks

A walk over types of a closed graph fails for one reason only: an identifier that it needs belongs
to another type (`Catalog.collides_of_starts`).  So it succeeds when the identifiers of the types
that it can meet are pairwise distinct (`Catalog.Distinct`) and none of them has another owner yet
(`Catalog.Unobstructed`).  The walk keeps the second condition because it claims identifiers for
those types alone.

Whatever is registered has led to pairwise distinct identifiers (`Registry.Sound.distinct`), since
each of them belongs to a single type.
-/

namespace SchemaCompiler

/-- Identifiers under one base differ if the schema names do. -/
lemma BaseUri.identifier_injective (base : BaseUri) : Function.Injective base.identifier := by
  intro first second h
  have huri := congrArg CanonicalId.uri h
  simpa [identifier, SchemaName.fileName] using huri

namespace Catalog

variable {c : Catalog} {graph : TypeGraph} {names : TypeName → Prop} {before after : Registry}

/-- Among some names no two types have the same identifier. -/
def Distinct (c : Catalog) (names : TypeName → Prop) : Prop :=
  ∀ t u, c.source.Describes t → c.source.Describes u → names t.name → names u.name →
    c.base.identifier t.schemaName = c.base.identifier u.schemaName → t.name = u.name

/-- The identifiers of the types among some names belong to these types or to none. -/
def Unobstructed (c : Catalog) (names : TypeName → Prop) (registry : Registry) : Prop :=
  ∀ t, c.source.Describes t → names t.name →
    ∀ owner, registry.owner? (c.base.identifier t.schemaName) = some owner → owner = t.name

/-- Types of different names have different identifiers if their schema names differ. -/
lemma distinct_of_schemaName {names : TypeName → Prop}
    (h : ∀ t ∈ c.source.unit.types, ∀ u ∈ c.source.unit.types,
      TypeSource.schemaNameOf t = TypeSource.schemaNameOf u → t.name = u.name) :
    c.Distinct names := by
  intro t u ht hu _ _ hid
  obtain ⟨declaredT, hlookupT, hnameT, hdescribeT⟩ := ht
  obtain ⟨declaredU, hlookupU, hnameU, hdescribeU⟩ := hu
  have hschemaName : t.schemaName = u.schemaName := c.base.identifier_injective hid
  rw [(TypeSource.describe_eq_ok hdescribeT).2.1, (TypeSource.describe_eq_ok hdescribeU).2.1]
    at hschemaName
  rw [← hnameT, ← hnameU]
  exact h declaredT (List.mem_of_find?_eq_some hlookupT) declaredU
    (List.mem_of_find?_eq_some hlookupU) hschemaName

/-- Nothing is in the way of types in an empty registry. -/
lemma unobstructed_empty : c.Unobstructed names {} := by
  intro t _ _ owner howner
  cases howner

/-- In a sound registry, types with distinct identifiers are not in each other's way. -/
lemma unobstructed_of_sound (hdistinct : c.Distinct fun _ => True) (hsound : before.Sound c) :
    c.Unobstructed names before := by
  intro t ht _ owner howner
  obtain ⟨u, hu, rfl, hid, -⟩ := hsound.claimant howner
  exact hdistinct u t hu ht trivial trivial hid

/-- Claims for types with distinct identifiers do not obstruct them. -/
lemma Unobstructed.of_claimsFor (h : c.Unobstructed names before) (hdistinct : c.Distinct names)
    (hclaims : c.ClaimsFor names before after) : c.Unobstructed names after := by
  intro t ht hname owner howner
  rcases hclaims _ owner howner with hbefore | ⟨u, hu, rfl, hid, hnameU⟩
  · exact h t ht hname owner hbefore
  · exact hdistinct u t hu ht hnameU hname hid

/-! ### Walks that fail -/

/-- A walk stopped because the identifier of a type among some names belongs to another type. -/
def Collides (c : Catalog) (names : TypeName → Prop) (stopped : Stopped) : Prop :=
  ∃ t owner, c.source.Describes t ∧ names t.name ∧ owner ≠ t.name ∧
    stopped.walk.registry.owner? (c.base.identifier t.schemaName) = some owner ∧
    stopped.failure = .collision (c.base.identifier t.schemaName) owner t.name

/-- A claim that fails is a collision. -/
lemma collides_of_claim {walk : Walk} {t : TypeDescription} {stopped : Stopped}
    (ht : c.source.Describes t) (hname : names t.name)
    (h : (c.resolver graph).claim walk t = .error stopped) : c.Collides names stopped := by
  obtain ⟨owner, howner, hne, rfl⟩ := Resolver.claim_eq_error_iff.mp h
  exact ⟨t, owner, ht, hname, hne, howner, rfl⟩

/-- A walk over names of a closed graph fails for a collision only. -/
theorem collides_of_visits {walk : Walk} {visited : List TypeName} {result : Except Stopped Walk}
    (hgraph : graph.Closed c.source)
    (hclosed : ∀ {first second}, names first → c.Mentions first second → names second)
    (hcontains : ∀ {name}, names name → graph.contains name = true)
    (hvisited : ∀ name ∈ visited, names name)
    (h : (c.resolver graph).Visits walk visited result) :
    ∀ stopped, result = .error stopped → c.Collides names stopped := by
  induction h with
  | done => nofun
  | undescribed hname =>
    obtain ⟨t, ht⟩ := exists_described (c := c) (hcontains (hvisited _ List.mem_cons_self))
    rw [hname] at ht
    cases ht
  | collided hname hclaim =>
    rintro _ ⟨⟩
    obtain ⟨-, ht, rfl⟩ := described_eq_ok hgraph hname
    exact collides_of_claim ht (hvisited _ List.mem_cons_self) hclaim
  | known _ _ _ _ ih => exact ih fun name hmem => hvisited name (List.mem_cons_of_mem _ hmem)
  | stopped hname _ _ _ ih =>
    obtain ⟨-, ht, rfl⟩ := described_eq_ok hgraph hname
    have hself := hvisited _ List.mem_cons_self
    exact ih fun name hmem => hclosed hself ((mentions_iff ht).mpr hmem)
  | built _ _ _ _ _ _ ihrest =>
    exact ihrest fun name hmem => hvisited name (List.mem_cons_of_mem _ hmem)

/-- The walk of a root of a closed graph fails for a collision among the types that the root leads
to, and for nothing else. -/
theorem collides_of_starts {registry : Registry} {root : TypeName} {stopped : Stopped}
    (hgraph : graph.Closed c.source) (hcontains : graph.contains root = true)
    (h : (c.resolver graph).Starts registry root (.error stopped)) :
    c.Collides (c.Leads root) stopped := by
  have hclosed : ∀ {first second}, c.Leads root first → c.Mentions first second →
      c.Leads root second := fun hfirst hmentions => hfirst.tail hmentions
  cases h with
  | undescribed hname =>
    obtain ⟨t, ht⟩ := exists_described (c := c) hcontains
    rw [hname] at ht
    cases ht
  | collided hname hclaim =>
    obtain ⟨-, ht, rfl⟩ := described_eq_ok hgraph hname
    exact collides_of_claim ht .refl hclaim
  | stopped hname _ hinner =>
    obtain ⟨-, ht, rfl⟩ := described_eq_ok hgraph hname
    exact collides_of_visits hgraph hclosed (contains_of_leads hgraph hcontains)
      (fun name hmem => .single ((mentions_iff ht).mpr hmem)) hinner _ rfl

/-- Types with distinct identifiers that nothing obstructs do not collide. -/
lemma not_collides {registry : Registry} {stopped : Stopped} (hdistinct : c.Distinct names)
    (hfree : c.Unobstructed names registry)
    (hclaims : c.ClaimsFor names registry stopped.walk.registry) : ¬c.Collides names stopped := by
  rintro ⟨t, owner, ht, hname, hne, howner, -⟩
  exact hne (hfree.of_claimsFor hdistinct hclaims t ht hname owner howner)

/-- The walk of a root succeeds if the types that the root leads to have distinct identifiers and
are unobstructed. -/
theorem exists_walk_of_starts {registry : Registry} {root : TypeName}
    {result : Except Stopped Walk} (hgraph : graph.Closed c.source)
    (hcontains : graph.contains root = true) (hdistinct : c.Distinct (c.Leads root))
    (hfree : c.Unobstructed (c.Leads root) registry)
    (h : (c.resolver graph).Starts registry root result) : ∃ final, result = .ok final := by
  cases result with
  | ok final => exact ⟨final, rfl⟩
  | error stopped =>
    exact absurd (collides_of_starts hgraph hcontains h)
      (not_collides hdistinct hfree (claimsFor_of_starts hgraph h))

end Catalog

/-- The types that a registered type leads to have distinct identifiers. -/
theorem Registry.Sound.distinct {c : Catalog} {registry : Registry} (h : registry.Sound c)
    {d : Definition} (hd : d ∈ registry.definitions) : c.Distinct (c.Leads d.typeName) := by
  have howner : ∀ t, c.source.Describes t → c.Leads d.typeName t.name →
      registry.owner? (c.base.identifier t.schemaName) = some t.name := by
    intro t ht hleads
    obtain ⟨e, he, hname⟩ := h.exists_of_leads hd hleads
    rw [← Catalog.identifierOf_of_describes ht, ← hname, h.identifierOf_typeName he]
    exact h.held e he
  intro t u ht hu hleadsT hleadsU hid
  have hboth := howner t ht hleadsT
  rw [hid, howner u hu hleadsU] at hboth
  exact (Option.some.inj hboth).symm

end SchemaCompiler
