import SchemaCompiler.Proofs.Definition.Catalog
import SchemaCompiler.Proofs.Definition.Preorder

/-!
# Sound registries

A registry is sound for a catalog (`Registry.Sound`) if its definitions are those of the catalog,
each held by its type under an identifier of its own, and if every type that a registered type
mentions is registered.  The walk of a root keeps a registry sound, however it ends: while it goes
on it only claims identifiers (`Sound.of_starts`), and what a successful walk has built is closed
when it is registered together (`Sound.of_starts_ok`).

While types are being built, what has been built mentions types that are still being built.  The
invariant of a walk (`Walk.Settled`) therefore asks only that a mentioned type is known and holds
its identifier, and so does what a walk over some names has reached (`Walk.Visited`).  At the end no
type is being built, and what is known has a definition.
-/

namespace SchemaCompiler

variable {c : Catalog} {graph : TypeGraph}

/-! ### Claimed identifiers -/

namespace Catalog

/-- A described type among some names holds the identifier of its schema name. -/
def Claimant (c : Catalog) (names : TypeName → Prop) (id : CanonicalId) (name : TypeName) : Prop :=
  ∃ t, c.source.Describes t ∧ t.name = name ∧ c.base.identifier t.schemaName = id ∧ names name

/-- Every owner in a later registry is an earlier owner or a claimant among some names. -/
def ClaimsFor (c : Catalog) (names : TypeName → Prop) (before after : Registry) : Prop :=
  ∀ id name, after.owner? id = some name →
    before.owner? id = some name ∨ c.Claimant names id name

variable {names : TypeName → Prop} {first second third : Registry}

/-- No claim is for any names. -/
lemma ClaimsFor.refl : c.ClaimsFor names first first := fun _ _ => Or.inl

/-- Claims for some names follow each other. -/
lemma ClaimsFor.trans (h : c.ClaimsFor names first second) (h' : c.ClaimsFor names second third) :
    c.ClaimsFor names first third :=
  fun id name howner => (h' id name howner).elim (h id name) Or.inr

/-- The claim of a described type is for names that include it. -/
lemma claimsFor_of_claim {walk claimed : Walk} {t : TypeDescription} (ht : c.source.Describes t)
    (hnames : names t.name) (h : (c.resolver graph).claim walk t = .ok claimed) :
    c.ClaimsFor names walk.registry claimed.registry := by
  obtain ⟨registry, hclaim, rfl⟩ := Resolver.claim_eq_ok h
  intro id name howner
  rcases Registry.owner?_or_of_claim hclaim howner with hbefore | ⟨rfl, rfl⟩
  · exact Or.inl hbefore
  · exact Or.inr ⟨t, ht, rfl, rfl, hnames⟩

/-- A walk claims identifiers for names that are closed under mentions. -/
theorem claimsFor_of_visits {walk : Walk} {visited : List TypeName}
    {result : Except Stopped Walk} (hgraph : graph.Closed c.source)
    (hclosed : ∀ {first second}, names first → c.Mentions first second → names second)
    (hvisited : ∀ name ∈ visited, names name)
    (h : (c.resolver graph).Visits walk visited result) :
    c.ClaimsFor names walk.registry (Resolver.registryOf result) := by
  induction h with
  | done => exact .refl
  | undescribed => exact .refl
  | collided _ hclaim =>
    obtain ⟨-, -, -, rfl⟩ := Resolver.claim_eq_error_iff.mp hclaim
    exact .refl
  | @known _ _ name rest _ _ hname hclaim _ _ ih =>
    obtain ⟨-, ht, rfl⟩ := described_eq_ok hgraph hname
    have hthis := claimsFor_of_claim ht (hvisited _ List.mem_cons_self) hclaim
    exact hthis.trans (ih fun name hmem => hvisited name (List.mem_cons_of_mem _ hmem))
  | @stopped _ _ name rest t _ hname hclaim _ _ ih =>
    obtain ⟨-, ht, rfl⟩ := described_eq_ok hgraph hname
    have hself : names t.name := hvisited _ List.mem_cons_self
    have hthis := claimsFor_of_claim ht hself hclaim
    exact hthis.trans (ih fun name hmem => hclosed hself ((mentions_iff ht).mpr hmem))
  | @built _ _ _ name rest t _ hname hclaim _ _ _ ihinner ihrest =>
    obtain ⟨-, ht, rfl⟩ := described_eq_ok hgraph hname
    have hself : names t.name := hvisited _ List.mem_cons_self
    have hthis := claimsFor_of_claim ht hself hclaim
    have hinner := ihinner fun name hmem => hclosed hself ((mentions_iff ht).mpr hmem)
    have hrest := ihrest fun name hmem => hvisited name (List.mem_cons_of_mem _ hmem)
    exact hthis.trans (hinner.trans hrest)

/-- The walk of a root claims identifiers for the types that the root leads to. -/
theorem claimsFor_of_starts {registry : Registry} {root : TypeName}
    {result : Except Stopped Walk} (hgraph : graph.Closed c.source)
    (h : (c.resolver graph).Starts registry root result) :
    c.ClaimsFor (c.Leads root) registry (Resolver.registryOf result) := by
  have hclosed : ∀ {first second}, c.Leads root first → c.Mentions first second →
      c.Leads root second := fun hfirst hmentions => hfirst.tail hmentions
  have hclaimed {t : TypeDescription} {claimed : Walk}
      (hname : (c.resolver graph).described root = .ok t)
      (hclaim : (c.resolver graph).claim { registry } t = .ok claimed) :
      c.ClaimsFor (c.Leads root) registry claimed.registry := by
    obtain ⟨-, ht, rfl⟩ := described_eq_ok hgraph hname
    exact claimsFor_of_claim ht .refl hclaim
  have hmentioned {t : TypeDescription} (hname : (c.resolver graph).described root = .ok t) :
      ∀ name ∈ (c.config.build t).mentions, c.Leads root name := by
    obtain ⟨-, ht, rfl⟩ := described_eq_ok hgraph hname
    exact fun name hmem => .single ((mentions_iff ht).mpr hmem)
  cases h with
  | undescribed => exact .refl
  | collided _ hclaim =>
    obtain ⟨-, -, -, rfl⟩ := Resolver.claim_eq_error_iff.mp hclaim
    exact .refl
  | stopped hname hclaim hinner =>
    have hvisits := claimsFor_of_visits hgraph hclosed (hmentioned hname) hinner
    exact (hclaimed hname hclaim).trans hvisits
  | built hname hclaim hinner =>
    have hvisits := claimsFor_of_visits hgraph hclosed (hmentioned hname) hinner
    exact (hclaimed hname hclaim).trans hvisits

end Catalog

/-- The walk of a root extends the registry by claims. -/
theorem Resolver.Starts.registry_extends {r : Resolver} {registry : Registry} {root : TypeName}
    {result : Except Stopped Walk} (h : r.Starts registry root result) :
    registry.Extends (registryOf result) := by
  cases h with
  | undescribed => exact .refl _
  | collided _ hclaim =>
    obtain ⟨-, -, -, rfl⟩ := claim_eq_error_iff.mp hclaim
    exact .refl _
  | stopped _ hclaim hinner => exact (extends_of_claim hclaim).trans hinner.registry_extends
  | built _ hclaim hinner => exact (extends_of_claim hclaim).trans hinner.registry_extends

/-! ### Sound registries -/

/-- The definitions are those of the catalog, each held by its type, no identifier has two, and the
types that a registered type mentions are registered. -/
structure Registry.Sound (c : Catalog) (registry : Registry) : Prop where
  claimant : ∀ {id name}, registry.owner? id = some name → c.Claimant (fun _ => True) id name
  canonical : ∀ d ∈ registry.definitions, ∃ t, c.source.Describes t ∧ d = c.define t
  held : ∀ d ∈ registry.definitions, registry.owner? d.id = some d.typeName
  nodup : registry.ids.Nodup
  closed : ∀ d ∈ registry.definitions, ∀ name, c.Mentions d.typeName name →
    ∃ e ∈ registry.definitions, e.typeName = name

namespace Registry.Sound

variable {registry after : Registry}

/-- The empty registry is sound. -/
lemma empty : Sound c {} where
  claimant := nofun
  canonical := nofun
  held := nofun
  nodup := List.nodup_nil
  closed := nofun

/-- The identifier of a registered type is that of its definition. -/
lemma identifierOf_typeName (h : Sound c registry) {d : Definition}
    (hd : d ∈ registry.definitions) : c.identifierOf d.typeName = d.id := by
  obtain ⟨t, ht, rfl⟩ := h.canonical d hd
  exact Catalog.identifierOf_of_describes ht

/-- A placeholder for a type was replaced by a reference to the definition of that type. -/
lemma exists_of_mentions (h : Sound c registry) {t : TypeDescription} (ht : c.source.Describes t)
    (hd : c.define t ∈ registry.definitions) {name : TypeName}
    (hname : name ∈ (c.config.build t).mentions) :
    ∃ e ∈ registry.definitions, e.typeName = name ∧ e.id = c.identifierOf name := by
  obtain ⟨e, he, rfl⟩ := h.closed _ hd name ((Catalog.mentions_iff ht).mpr hname)
  exact ⟨e, he, rfl, (h.identifierOf_typeName he).symm⟩

/-- A sound registry has a definition for every reference. -/
theorem closedUnderReferences (h : Sound c registry) : registry.ClosedUnderReferences := by
  intro d hd id hid
  obtain ⟨t, ht, rfl⟩ := h.canonical d hd
  obtain ⟨name, hname, rfl⟩ := Catalog.mem_references_define.mp hid
  obtain ⟨e, he, -, heid⟩ := h.exists_of_mentions ht hd hname
  exact Registry.contains_iff.mpr ⟨e, he, heid⟩

/-- The types that a registered type leads to are registered. -/
theorem exists_of_leads (h : Sound c registry) {d : Definition} (hd : d ∈ registry.definitions)
    {name : TypeName} (hleads : c.Leads d.typeName name) :
    ∃ e ∈ registry.definitions, e.typeName = name := by
  induction hleads with
  | refl => exact ⟨d, hd, rfl⟩
  | tail _ hmentions ih =>
    obtain ⟨e, he, rfl⟩ := ih
    exact h.closed e he _ hmentions

/-- What the references of a registered type lead to are definitions of types that it leads to. -/
theorem leads_of_preorder (h : Sound c registry) {d : Definition} (hd : d ∈ registry.definitions)
    {ds : List Definition} (hds : registry.Preorder [d.id] d.references ds) :
    ∀ e ∈ ds, e ∈ registry.definitions ∧ c.Leads d.typeName e.typeName := by
  -- What is found carries the identifier of a type that the registered type leads to.
  have htyped : ∀ e ∈ registry.definitions,
      (∃ name, c.identifierOf name = e.id ∧ c.Leads d.typeName name) →
      c.Leads d.typeName e.typeName := by
    rintro e he ⟨name, hid, hleads⟩
    obtain ⟨e', he', rfl⟩ := h.exists_of_leads hd hleads
    rw [h.identifierOf_typeName he'] at hid
    rwa [List.inj_on_of_nodup_map h.nodup he' he hid] at hleads
  have hreferences : ∀ e ∈ registry.definitions, c.Leads d.typeName e.typeName →
      ∀ id ∈ e.references, ∃ name, c.identifierOf name = id ∧ c.Leads d.typeName name := by
    intro e he hleads id hid
    obtain ⟨t, ht, rfl⟩ := h.canonical e he
    obtain ⟨name, hname, rfl⟩ := Catalog.mem_references_define.mp hid
    exact ⟨name, rfl, hleads.tail ((Catalog.mentions_iff ht).mpr hname)⟩
  have hmem : ∀ e ∈ ds, e ∈ registry.definitions :=
    fun e he => (Registry.mem_of_get? (hds.get?_of_mem e he)).1
  have hfound := hds.forall_mem (hreferences d hd .refl)
    fun e he hid => hreferences e (hmem e he) (htyped e (hmem e he) hid)
  exact fun e he => ⟨hmem e he, htyped e (hmem e he) (hfound e he)⟩

/-- Two sound registries of one catalog have the same definition for a type. -/
lemma eq_of_typeName (h : Sound c registry) (hafter : Sound c after) {d e : Definition}
    (hd : d ∈ registry.definitions) (he : e ∈ after.definitions)
    (hname : d.typeName = e.typeName) : d = e := by
  obtain ⟨t, ht, rfl⟩ := h.canonical d hd
  obtain ⟨u, hu, rfl⟩ := hafter.canonical e he
  rw [ht.unique hu hname]

/-- What a registered type leads to is the same in two sound registries of one catalog. -/
theorem preorder (h : Sound c registry) (hafter : Sound c after) {d : Definition}
    (hd : d ∈ registry.definitions) (hd' : d ∈ after.definitions) {ds : List Definition}
    (hds : registry.Preorder [d.id] d.references ds) : after.Preorder [d.id] d.references ds := by
  refine hds.congr fun e he => ?_
  obtain ⟨hmem, hleads⟩ := h.leads_of_preorder hd hds e he
  obtain ⟨e', he', hname⟩ := hafter.exists_of_leads hd' hleads
  obtain rfl := hafter.eq_of_typeName h he' hmem hname
  exact Registry.get?_of_mem hafter.nodup he'

/-- Claims of described types keep a registry sound. -/
lemma of_claims {names : TypeName → Prop} (h : Sound c registry)
    (hextends : registry.Extends after) (hclaims : c.ClaimsFor names registry after) :
    Sound c after where
  claimant := by
    intro id name howner
    rcases hclaims id name howner with hbefore | ⟨t, ht, hname, hid, -⟩
    · exact h.claimant hbefore
    · exact ⟨t, ht, hname, hid, trivial⟩
  canonical := hextends.definitions ▸ h.canonical
  held := fun d hd => hextends.owner (h.held d (hextends.definitions ▸ hd))
  nodup := by
    rw [ids, hextends.definitions]
    exact h.nodup
  closed := hextends.definitions ▸ h.closed

/-- However the walk of a root ends, the registry with its claims is sound. -/
theorem of_starts {root : TypeName} {result : Except Stopped Walk} (h : Sound c registry)
    (hgraph : graph.Closed c.source) (hstarts : (c.resolver graph).Starts registry root result) :
    Sound c (Resolver.registryOf result) :=
  h.of_claims hstarts.registry_extends (Catalog.claimsFor_of_starts hgraph hstarts)

end Registry.Sound

/-! ### What a walk has built -/

namespace Walk

variable {walk next : Walk} {name : TypeName} {t : TypeDescription}

/-- A described type that holds its identifier and has a definition or is being built. -/
def Holds (c : Catalog) (walk : Walk) (name : TypeName) : Prop :=
  ∃ t, c.source.Describes t ∧ t.name = name ∧
    walk.registry.owner? (c.base.identifier t.schemaName) = some name ∧
    walk.knows (c.base.identifier t.schemaName) = true

/-- What has been built are definitions of the catalog, held by their types, and the types that they
mention have definitions or are being built. -/
def Settled (c : Catalog) (walk : Walk) : Prop :=
  ∀ d ∈ walk.staged, ∃ t, c.source.Describes t ∧ d = c.define t ∧
    walk.registry.owner? d.id = some t.name ∧
    ∀ name ∈ (c.config.build t).mentions, walk.Holds c name

/-- A later state of a walk: owners stay, and what is known stays known. -/
structure Precedes (walk next : Walk) : Prop where
  owner : ∀ {id name}, walk.registry.owner? id = some name → next.registry.owner? id = some name
  knows : ∀ {id}, walk.knows id = true → next.knows id = true

/-- States of a walk follow each other. -/
lemma Precedes.trans {third : Walk} (h : walk.Precedes next) (h' : next.Precedes third) :
    walk.Precedes third :=
  ⟨fun howner => h'.owner (h.owner howner), fun hknows => h'.knows (h.knows hknows)⟩

/-- What a type holds it goes on to hold. -/
lemma Holds.mono (h : walk.Holds c name) (hnext : walk.Precedes next) : next.Holds c name := by
  obtain ⟨t, ht, hname, howner, hknows⟩ := h
  exact ⟨t, ht, hname, hnext.owner howner, hnext.knows hknows⟩

/-- What has been built stays settled while nothing is added to it. -/
lemma Settled.mono (h : walk.Settled c) (hnext : walk.Precedes next)
    (hstaged : next.staged = walk.staged) : next.Settled c := by
  intro d hd
  obtain ⟨t, ht, hdefine, howner, hholds⟩ := h d (hstaged ▸ hd)
  exact ⟨t, ht, hdefine, hnext.owner howner, fun name hname => (hholds name hname).mono hnext⟩

/-- A claim leads to a later state. -/
lemma precedes_of_claim {r : Resolver} (h : r.claim walk t = .ok next) : walk.Precedes next := by
  obtain ⟨registry, hclaim, rfl⟩ := Resolver.claim_eq_ok h
  have hextends := Registry.extends_of_claim hclaim
  refine ⟨fun howner => hextends.owner howner, fun {id} hknows => ?_⟩
  simpa [knows, hextends.contains] using hknows

/-- Entering a type leads to a later state. -/
lemma precedes_enter {r : Resolver} : walk.Precedes (r.enter walk t) := by
  refine ⟨fun howner => howner, fun {id} hknows => ?_⟩
  simp only [knows, Resolver.enter, List.contains_cons, Bool.or_eq_true] at hknows ⊢
  tauto

/-- Leaving a type leads to a later state: instead of being built it has been built. -/
lemma precedes_leave {r : Resolver} : walk.Precedes (r.leave walk t) := by
  refine ⟨fun howner => howner, fun {id} hknows => ?_⟩
  simp only [knows, Resolver.leave, Bool.or_eq_true, List.contains_iff_mem, List.any_append,
    List.any_cons, List.any_nil, Bool.or_false, beq_iff_eq] at hknows ⊢
  by_cases hid : (r.define t).id = id
  · exact Or.inl (Or.inr (Or.inr hid))
  · have hne : id ≠ r.identifier t := fun h => hid h.symm
    rw [List.mem_erase_of_ne hne]
    tauto

/-- A claim makes nothing known. -/
lemma knows_of_claim {r : Resolver} (h : r.claim walk t = .ok next) (id : CanonicalId) :
    next.knows id = walk.knows id := by
  obtain ⟨registry, hclaim, rfl⟩ := Resolver.claim_eq_ok h
  simp only [knows, (Registry.extends_of_claim hclaim).contains]

/-- A type that is entered becomes known. -/
lemma knows_enter {r : Resolver} (id : CanonicalId) :
    (r.enter walk t).knows id = true ↔ id = r.identifier t ∨ walk.knows id = true := by
  simp only [knows, Resolver.enter, List.contains_cons, Bool.or_eq_true, beq_iff_eq, or_assoc]

/-- A type that is left stays known, and nothing else becomes known. -/
lemma knows_leave {r : Resolver} (h : r.identifier t ∈ walk.visiting) (id : CanonicalId) :
    (r.leave walk t).knows id = true ↔ walk.knows id = true := by
  refine ⟨fun hknows => ?_, precedes_leave.knows⟩
  simp only [knows, Resolver.leave, Bool.or_eq_true, List.contains_iff_mem, List.any_append,
    List.any_cons, List.any_nil, Bool.or_false, beq_iff_eq] at hknows ⊢
  rcases hknows with (hvisiting | hstaged | hself) | hregistered
  · exact Or.inl (Or.inl (List.mem_of_mem_erase hvisiting))
  · exact Or.inl (Or.inr hstaged)
  · have hid : id = r.identifier t := hself.symm
    exact Or.inl (Or.inl (hid ▸ h))
  · exact Or.inr hregistered

/-- A type that holds its identifier and is known to a walk is held. -/
lemma holds_of_knows {r : Resolver} (ht : c.source.Describes t) (hr : r.base = c.base)
    (howner : walk.registry.owner? (r.identifier t) = some t.name)
    (hknows : walk.knows (r.identifier t) = true) : walk.Holds c t.name := by
  rw [Resolver.identifier, hr] at howner hknows
  exact ⟨t, ht, rfl, howner, hknows⟩

/-- A type whose mentioned types are held is settled when it is left. -/
lemma Settled.leave (hgraph : graph.Closed c.source) (h : walk.Settled c) (ht : t ∈ graph.types)
    (howner : walk.registry.owner? ((c.resolver graph).identifier t) = some t.name)
    (hmentions : ∀ name ∈ (c.config.build t).mentions, walk.Holds c name) :
    ((c.resolver graph).leave walk t).Settled c := by
  intro d hd
  rcases List.mem_append.mp hd with hd | hd
  · obtain ⟨u, hu, hdefine, huowner, hholds⟩ := h d hd
    exact ⟨u, hu, hdefine, huowner, fun name hname => (hholds name hname).mono precedes_leave⟩
  · rw [List.mem_singleton, Catalog.define_resolver hgraph ht] at hd
    subst hd
    exact ⟨t, hgraph.described t ht, rfl, howner,
      fun name hname => (hmentions name hname).mono precedes_leave⟩

/-! ### What a walk has visited -/

/-- A later state of a walk that has entered and left nothing since. -/
structure Stays (walk next : Walk) : Prop where
  precedes : walk.Precedes next
  visiting : next.visiting = walk.visiting
  staged : next.staged = walk.staged

/-- What a walk over some names has reached: they are held, and nothing else changes what is being
built. -/
structure Visited (c : Catalog) (walk : Walk) (visited : List TypeName) (next : Walk) :
    Prop where
  settled : next.Settled c
  precedes : walk.Precedes next
  visiting : next.visiting = walk.visiting
  holds : ∀ name ∈ visited, next.Holds c name

variable {names : List TypeName} {final : Walk}

/-- A walk that has done nothing. -/
lemma Stays.refl (walk : Walk) : walk.Stays walk :=
  ⟨⟨fun howner => howner, fun hknows => hknows⟩, rfl, rfl⟩

/-- States of a walk that has entered and left nothing follow each other. -/
lemma Stays.trans (h : walk.Stays next) (h' : next.Stays final) : walk.Stays final :=
  ⟨h.precedes.trans h'.precedes, h'.visiting.trans h.visiting, h'.staged.trans h.staged⟩

/-- A claim enters and leaves nothing. -/
lemma stays_of_claim {r : Resolver} (h : r.claim walk t = .ok next) : walk.Stays next :=
  ⟨precedes_of_claim h, Resolver.visiting_of_claim h, Resolver.staged_of_claim h⟩

/-- What is settled stays settled. -/
lemma Stays.settled (h : walk.Stays next) (hsettled : walk.Settled c) : next.Settled c :=
  hsettled.mono h.precedes h.staged

/-- A type that is held is visited. -/
lemma Visited.of_holds (h : walk.Stays next) (hsettled : walk.Settled c)
    (hholds : next.Holds c name) : walk.Visited c [name] next where
  settled := h.settled hsettled
  precedes := h.precedes
  visiting := h.visiting
  holds := by simpa using hholds

/-- What is visited from a later state is visited. -/
lemma Visited.of_stays (h : next.Visited c names final) (hstays : walk.Stays next) :
    walk.Visited c names final :=
  { h with
    precedes := hstays.precedes.trans h.precedes
    visiting := h.visiting.trans hstays.visiting }

/-- Without names nothing is to be visited. -/
lemma Visited.nil (hsettled : walk.Settled c) : walk.Visited c [] walk where
  settled := hsettled
  precedes := (Stays.refl walk).precedes
  visiting := rfl
  holds := nofun

/-- Names are visited one after another. -/
lemma Visited.cons (h : walk.Visited c [name] next) (hrest : next.Visited c names final) :
    walk.Visited c (name :: names) final where
  settled := hrest.settled
  precedes := h.precedes.trans hrest.precedes
  visiting := hrest.visiting.trans h.visiting
  holds := by
    have hname : final.Holds c name := (h.holds name List.mem_cons_self).mono hrest.precedes
    simpa [hname] using hrest.holds

/-- A type is visited once it is left, if the types that it mentions were visited since it was
entered. -/
lemma Visited.leave {inner : Walk} (hgraph : graph.Closed c.source) (ht : t ∈ graph.types)
    (howner : walk.registry.owner? ((c.resolver graph).identifier t) = some t.name)
    (h : ((c.resolver graph).enter walk t).Visited c (c.config.build t).mentions inner) :
    walk.Visited c [t.name] ((c.resolver graph).leave inner t) where
  settled := h.settled.leave hgraph ht (h.precedes.owner howner) h.holds
  precedes := precedes_enter.trans (h.precedes.trans precedes_leave)
  visiting := Resolver.visiting_leave_enter h.visiting
  holds := by
    have hknows : ((c.resolver graph).leave inner t).knows ((c.resolver graph).identifier t) =
        true := by simp [knows, Resolver.leave, Resolver.define]
    have hholds : ((c.resolver graph).leave inner t).Holds c t.name :=
      holds_of_knows (hgraph.described t ht) rfl (h.precedes.owner howner) hknows
    simpa using hholds

end Walk

/-- A successful walk from a settled state has visited the names that it was to visit. -/
theorem Walk.Settled.of_visits {walk : Walk} {names : List TypeName}
    {result : Except Stopped Walk} (hgraph : graph.Closed c.source)
    (h : (c.resolver graph).Visits walk names result) :
    ∀ final, result = .ok final → walk.Settled c → walk.Visited c names final := by
  induction h with
  | done =>
    rintro final ⟨⟩ hsettled
    exact .nil hsettled
  | undescribed | collided | stopped => nofun
  | @known walk claimed name rest t _ hname hclaim hknown _ ih =>
    intro final hfinal hsettled
    obtain ⟨-, ht, rfl⟩ := Catalog.described_eq_ok hgraph hname
    have hstays := stays_of_claim hclaim
    have hholds : claimed.Holds c t.name :=
      holds_of_knows ht rfl (Resolver.owner?_of_claim hclaim) hknown
    have hknows : walk.Visited c [t.name] claimed := .of_holds hstays hsettled hholds
    exact hknows.cons (ih final hfinal (hstays.settled hsettled))
  | @built walk claimed inner name rest t _ hname hclaim _ _ _ ihinner ihrest =>
    intro final hfinal hsettled
    obtain ⟨hmem, ht, rfl⟩ := Catalog.described_eq_ok hgraph hname
    have hstays := stays_of_claim hclaim
    have hinner := ihinner inner rfl ((hstays.settled hsettled).mono precedes_enter rfl)
    have hleft : claimed.Visited c [t.name] ((c.resolver graph).leave inner t) :=
      hinner.leave hgraph hmem (Resolver.owner?_of_claim hclaim)
    exact (hleft.of_stays hstays).cons (ihrest final hfinal hleft.settled)

/-- A walk that has built nothing is settled. -/
lemma Walk.settled_of_staged_eq_nil {walk : Walk} (h : walk.staged = []) : walk.Settled c := by
  intro d hd
  rw [h] at hd
  exact absurd hd List.not_mem_nil

/-- The successful walk of a root has visited the root. -/
theorem Walk.Settled.of_starts {walk : Walk} {registry : Registry} {root : TypeName}
    (hgraph : graph.Closed c.source)
    (h : (c.resolver graph).Starts registry root (.ok walk)) :
    ({ registry } : Walk).Visited c [root] walk := by
  cases h with
  | @built t claimed inner hname hclaim hinner =>
    obtain ⟨hmem, ht, rfl⟩ := Catalog.described_eq_ok hgraph hname
    have hstays := stays_of_claim hclaim
    have hentered : ((c.resolver graph).enter claimed t).Settled c :=
      settled_of_staged_eq_nil hstays.staged
    have hvisited := Walk.Settled.of_visits hgraph hinner inner rfl hentered
    have hleft := hvisited.leave hgraph hmem (Resolver.owner?_of_claim hclaim)
    exact hleft.of_stays hstays

/-! ### Registering what has been built -/

namespace Registry.Sound

variable {registry : Registry} {walk : Walk}

/-- A known identifier has a definition once what has been built is registered, if nothing is being
built any more. -/
lemma contains_of_knows {id : CanonicalId} (hvisiting : walk.visiting = [])
    (hknows : walk.knows id = true) :
    (walk.registry.registerAll walk.staged).contains id = true := by
  rw [Registry.contains_registerAll]
  simpa [Walk.knows, hvisiting, or_comm] using hknows

/-- What a walk has built is closed when nothing is being built any more. -/
theorem registerAll (h : Sound c walk.registry) (hvisiting : walk.visiting = [])
    (hsettled : walk.Settled c) : Sound c (walk.registry.registerAll walk.staged) := by
  have hheld : ∀ d ∈ (walk.registry.registerAll walk.staged).definitions,
      walk.registry.owner? d.id = some d.typeName := by
    intro d hd
    rcases Registry.mem_of_mem_registerAll hd with hd | hd
    · exact h.held d hd
    · obtain ⟨t, -, rfl, howner, -⟩ := hsettled d hd
      exact howner
  refine ⟨?_, ?_, ?_, Registry.nodup_registerAll h.nodup, ?_⟩
  · intro id name howner
    rw [Registry.owner?_registerAll] at howner
    exact h.claimant howner
  · intro d hd
    rcases Registry.mem_of_mem_registerAll hd with hd | hd
    · exact h.canonical d hd
    · obtain ⟨t, ht, hdefine, -, -⟩ := hsettled d hd
      exact ⟨t, ht, hdefine⟩
  · intro d hd
    rw [Registry.owner?_registerAll]
    exact hheld d hd
  · intro d hd name hmentions
    rcases Registry.mem_of_mem_registerAll hd with hd | hd
    · obtain ⟨e, he, hname⟩ := h.closed d hd name hmentions
      exact ⟨e, Registry.mem_registerAll_of_mem he, hname⟩
    · -- A mentioned type is known, so its identifier has a definition, which its owner holds.
      obtain ⟨t, ht, rfl, -, hholds⟩ := hsettled d hd
      obtain ⟨u, hu, rfl, howner, hknows⟩ := hholds name ((Catalog.mentions_iff ht).mp hmentions)
      obtain ⟨e, he, hid⟩ := Registry.contains_iff.mp (contains_of_knows hvisiting hknows)
      refine ⟨e, he, ?_⟩
      have heowner := hheld e he
      rw [hid, howner] at heowner
      exact (Option.some.inj heowner).symm

/-- What a walk has built is found under its identifier once it is registered. -/
lemma get?_of_staged (h : Sound c (walk.registry.registerAll walk.staged))
    (hsettled : walk.Settled c) {d : Definition} (hd : d ∈ walk.staged) :
    (walk.registry.registerAll walk.staged).get? d.id = some d := by
  obtain ⟨t, ht, rfl, howner, -⟩ := hsettled d hd
  -- Whatever is registered under the identifier is held by the type that owns the identifier.
  obtain ⟨e, he, hid⟩ := Registry.contains_iff.mp (Registry.contains_registerAll.mpr
    (Or.inr ⟨c.define t, hd, rfl⟩))
  have hheld := h.held e he
  rw [hid, Registry.owner?_registerAll, howner] at hheld
  obtain ⟨u, hu, rfl⟩ := h.canonical e he
  obtain rfl : t = u := ht.unique hu (Option.some.inj hheld)
  exact Registry.get?_of_mem h.nodup he

/-- A type that is held has its definition once what has been built is registered. -/
lemma exists_of_holds {name : TypeName} (h : Sound c (walk.registry.registerAll walk.staged))
    (hvisiting : walk.visiting = []) (hholds : walk.Holds c name) :
    ∃ d ∈ (walk.registry.registerAll walk.staged).definitions, d.typeName = name := by
  obtain ⟨t, -, rfl, howner, hknows⟩ := hholds
  obtain ⟨d, hd, hid⟩ := Registry.contains_iff.mp (contains_of_knows hvisiting hknows)
  have hdowner := h.held d hd
  rw [hid, Registry.owner?_registerAll, howner] at hdowner
  exact ⟨d, hd, (Option.some.inj hdowner).symm⟩

/-- What the successful walk of a root has built is registered to a sound registry, in which the
root has its definition. -/
theorem of_starts_ok {root : TypeName} (h : Sound c registry) (hgraph : graph.Closed c.source)
    (hstarts : (c.resolver graph).Starts registry root (.ok walk)) :
    Sound c (walk.registry.registerAll walk.staged) ∧
      ∃ d ∈ (walk.registry.registerAll walk.staged).definitions, d.typeName = root := by
  have hvisited := Walk.Settled.of_starts hgraph hstarts
  have hsound : Sound c walk.registry := h.of_starts hgraph hstarts
  have hregistered := hsound.registerAll hvisited.visiting hvisited.settled
  have hroot := hvisited.holds root List.mem_cons_self
  exact ⟨hregistered, hregistered.exists_of_holds hvisited.visiting hroot⟩

end Registry.Sound

end SchemaCompiler
