import SchemaCompiler.Proofs.Definition.DepthFirst
import SchemaCompiler.Proofs.Generator.SharedRegistry

/-!
# The order of definitions

The definitions of a document stand in the order of the recursive depth-first traversal from its
root (`definitions_depthFirst`).  For a registry that is closed under references this is a statement
about the search alone.

With an empty registry the walk that builds the definitions is a depth-first traversal itself, of
placeholders in schemas that are not finished yet.  It claims an identifier when it meets it for the
first time, and then builds its type at once.  So at every moment what is claimed is what is being
built or has been built (`Walk.Fresh`), and what the walk skips as known is what the traversal skips
as seen (`Catalog.exists_traverses_of_visits`).
-/

namespace SchemaCompiler

/-! ### Claims of a walk -/

namespace Walk

variable {r : Resolver} {walk claimed : Walk} {t : TypeDescription}

/-- The identifiers whose definitions are there or being built. -/
def known (walk : Walk) : Set CanonicalId := {id | walk.knows id = true}

/-- Nothing is registered, and the identifiers that have an owner are those of the types that have
been built or are being built. -/
structure Fresh (walk : Walk) : Prop where
  unregistered : walk.registry.definitions = []
  owned_iff : ∀ id, (walk.registry.owner? id).isSome = true ↔ walk.knows id = true

namespace Fresh

/-- The claim for a known type changes nothing. -/
lemma eq_of_claim (h : walk.Fresh) (hclaim : r.claim walk t = .ok claimed)
    (hknown : claimed.knows (r.identifier t) = true) : claimed = walk := by
  rw [knows_of_claim hclaim] at hknown
  obtain ⟨registry, hregistry, rfl⟩ := Resolver.claim_eq_ok hclaim
  rw [Registry.eq_of_claim_of_owned ((h.owned_iff _).mpr hknown) hregistry]

/-- The claim for a new type is noted after the earlier claims. -/
lemma claims_eq (h : walk.Fresh) (hclaim : r.claim walk t = .ok claimed)
    (hnew : claimed.knows (r.identifier t) = false) :
    claimed.registry.claims = walk.registry.claims ++ [(r.identifier t, t.name)] := by
  rw [knows_of_claim hclaim] at hnew
  obtain ⟨registry, hregistry, rfl⟩ := Resolver.claim_eq_ok hclaim
  refine Registry.claims_of_claim ?_ hregistry
  by_contra howned
  have hknown := (h.owned_iff _).mp (Option.isSome_iff_ne_none.mpr howned)
  rw [hnew] at hknown
  cases hknown

/-- A walk stays fresh when it enters a type that it has claimed. -/
lemma enter (h : walk.Fresh) (hclaim : r.claim walk t = .ok claimed) :
    (r.enter claimed t).Fresh where
  unregistered := (Resolver.extends_of_claim hclaim).definitions.trans h.unregistered
  owned_iff := by
    intro id
    rw [knows_enter, knows_of_claim hclaim, ← h.owned_iff]
    obtain ⟨registry, hregistry, rfl⟩ := Resolver.claim_eq_ok hclaim
    show (registry.owner? id).isSome = true ↔ _
    rw [(Registry.claim_eq_ok hregistry).2 id]
    split
    · next hid => simp [hid]
    · next hid => simp [hid]

/-- A walk stays fresh when it leaves a type that is being built. -/
lemma leave (h : walk.Fresh) (hvisiting : r.identifier t ∈ walk.visiting) :
    (r.leave walk t).Fresh where
  unregistered := h.unregistered
  owned_iff := fun id => (h.owned_iff id).trans (knows_leave hvisiting id).symm

end Fresh

end Walk

/-- A successful walk adds to what has been built. -/
lemma Resolver.Visits.staged_prefix {r : Resolver} {walk : Walk} {names : List TypeName}
    {result : Except Stopped Walk} (h : r.Visits walk names result) :
    ∀ final, result = .ok final → walk.staged <+: final.staged := by
  induction h with
  | done =>
    rintro final ⟨⟩
    exact List.prefix_rfl
  | undescribed | collided | stopped => nofun
  | known _ hclaim _ _ ih =>
    intro final hfinal
    rw [← staged_of_claim hclaim]
    exact ih final hfinal
  | @built walk claimed inner name rest t _ hname hclaim _ _ _ ihinner ihrest =>
    intro final hfinal
    have hinner : claimed.staged <+: inner.staged := ihinner inner rfl
    have hleave : inner.staged <+: (r.leave inner t).staged := List.prefix_append _ _
    rw [← staged_of_claim hclaim]
    exact hinner.trans (hleave.trans (ihrest final hfinal))

/-- A successful walk that starts fresh ends fresh. -/
lemma Walk.Fresh.of_visits {r : Resolver} {walk : Walk} {names : List TypeName}
    {result : Except Stopped Walk} (h : r.Visits walk names result) (hfresh : walk.Fresh) :
    ∀ final, result = .ok final → final.Fresh := by
  induction h with
  | done =>
    rintro final ⟨⟩
    exact hfresh
  | undescribed | collided | stopped => nofun
  | known _ hclaim hknown _ ih =>
    obtain rfl := hfresh.eq_of_claim hclaim hknown
    exact ih hfresh
  | built _ hclaim _ hinner _ ihinner ihrest =>
    refine ihrest ((ihinner (hfresh.enter hclaim) _ rfl).leave ?_)
    rw [hinner.visiting_eq _ rfl]
    exact List.mem_cons_self

namespace Catalog

variable {c : Catalog} {graph : TypeGraph} {registry : Registry}

/-- The claim that goes with a definition. -/
def claimOf (d : Definition) : CanonicalId × TypeName := (d.id, d.typeName)

/-- Between two states of a walk over names, definitions were visited depth first, and their
identifiers were claimed in this order. -/
structure Traverses (c : Catalog) (registry : Registry) (walk : Walk) (names : List TypeName)
    (final : Walk) (ds : List Definition) : Prop where
  depthFirst : registry.DepthFirst walk.known (names.map c.identifierOf) ds
  known : final.known = walk.known ∪ Registry.idsOf ds
  claims : final.registry.claims = walk.registry.claims ++ ds.map claimOf

/-- Between claiming and leaving a new type, its definition is visited and then those that it leads
to. -/
lemma Traverses.inside {walk claimed inner : Walk} {t : TypeDescription} {ds : List Definition}
    (h : c.Traverses registry ((c.resolver graph).enter claimed t) (c.config.build t).mentions
      inner ds)
    (ht : c.source.Describes t) (hfresh : walk.Fresh)
    (hclaim : (c.resolver graph).claim walk t = .ok claimed)
    (hnew : claimed.knows ((c.resolver graph).identifier t) = false)
    (hvisiting : inner.visiting = ((c.resolver graph).enter claimed t).visiting) :
    registry.DepthFirst (insert (c.identifierOf t.name) walk.known) (c.define t).references ds ∧
      ((c.resolver graph).leave inner t).known =
        walk.known ∪ Registry.idsOf (c.define t :: ds) ∧
      ((c.resolver graph).leave inner t).registry.claims =
        walk.registry.claims ++ (c.define t :: ds).map claimOf := by
  have hid : (c.resolver graph).identifier t = c.identifierOf t.name :=
    (identifierOf_of_describes ht).symm
  have hentered : ((c.resolver graph).enter claimed t).known =
      insert (c.identifierOf t.name) walk.known := by
    ext id
    show Walk.knows _ id = true ↔ _
    rw [Walk.knows_enter, Walk.knows_of_claim hclaim, hid]
    rfl
  have hleft : ((c.resolver graph).leave inner t).known = inner.known := by
    ext id
    refine Walk.knows_leave ?_ id
    rw [hvisiting]
    exact List.mem_cons_self
  have hclaims : inner.registry.claims = claimed.registry.claims ++ ds.map claimOf := h.claims
  refine ⟨?_, ?_, ?_⟩
  · rw [references_define, ← hentered]
    exact h.depthFirst.eraseDups
  · rw [hleft, h.known, hentered, Registry.idsOf_cons, id_define ht, Set.union_insert,
      Set.insert_union]
  · rw [Resolver.registry_leave, hclaims, hfresh.claims_eq hclaim hnew, List.append_assoc]
    rfl

/-- A walk that starts fresh visits definitions depth first, and claims their identifiers in this
order.  The definitions are looked up in a registry that has those which the walk builds. -/
theorem exists_traverses_of_visits {walk : Walk} {names : List TypeName}
    {result : Except Stopped Walk} (hgraph : graph.Closed c.source)
    (h : (c.resolver graph).Visits walk names result) (hfresh : walk.Fresh) :
    ∀ final, result = .ok final → (∀ d ∈ final.staged, registry.get? d.id = some d) →
      ∃ ds, c.Traverses registry walk names final ds := by
  induction h with
  | done =>
    rintro final ⟨⟩ -
    exact ⟨[], .done, by simp, by simp⟩
  | undescribed | collided | stopped => nofun
  | known hname hclaim hknown _ ih =>
    intro final hfinal hregistered
    obtain rfl := hfresh.eq_of_claim hclaim hknown
    obtain ⟨-, ht, rfl⟩ := described_eq_ok hgraph hname
    obtain ⟨ds, hds⟩ := ih hfresh final hfinal hregistered
    refine ⟨ds, .skip ?_ hds.depthFirst, hds.known, hds.claims⟩
    rw [identifierOf_of_describes ht]
    exact hknown
  | @built walk claimed inner _ rest t _ hname hclaim hnew hinner hrest ihinner ihrest =>
    intro final hfinal hregistered
    obtain ⟨hmem, ht, rfl⟩ := described_eq_ok hgraph hname
    -- The type and what is built inside of it are among what is built in the end.
    have hlater : inner.staged ++ [c.define t] <+: final.staged := by
      rw [← define_resolver hgraph hmem]
      exact hrest.staged_prefix final hfinal
    have hget : registry.get? (c.identifierOf t.name) = some (c.define t) := by
      rw [← id_define ht]
      exact hregistered _ (hlater.subset (List.mem_append_right _ List.mem_cons_self))
    have hentered := hfresh.enter hclaim
    obtain ⟨ds, hds⟩ := ihinner hentered inner rfl
      fun d hd => hregistered d (hlater.subset (List.mem_append_left _ hd))
    obtain ⟨hreferences, hknown, hclaims⟩ :=
      hds.inside ht hfresh hclaim hnew (hinner.visiting_eq inner rfl)
    have hleft : ((c.resolver graph).leave inner t).Fresh := by
      refine (hentered.of_visits hinner inner rfl).leave ?_
      rw [hinner.visiting_eq inner rfl]
      exact List.mem_cons_self
    obtain ⟨later, hrestDs⟩ := ihrest hleft final hfinal hregistered
    refine ⟨c.define t :: ds ++ later, .visit ?_ hget hreferences ?_, ?_, ?_⟩
    · rw [identifierOf_of_describes ht]
      show ¬walk.knows _ = true
      rw [← Walk.knows_of_claim hclaim]
      exact fun hknows => Bool.false_ne_true (hnew.symm.trans hknows)
    · rw [← hknown]
      exact hrestDs.depthFirst
    · rw [hrestDs.known, hknown, Registry.idsOf_append, Set.union_assoc]
    · rw [hrestDs.claims, hclaims, List.map_append, List.append_assoc]

/-- The successful walk of a root that starts with an empty registry claims the identifier of the
root and then those of the definitions that it leads to, depth first. -/
theorem exists_depthFirst_of_starts {root : TypeName} {final : Walk}
    (hgraph : graph.Closed c.source) (h : (c.resolver graph).Starts {} root (.ok final)) :
    ∃ t ds, t.name = root ∧
      (final.registry.registerAll final.staged).get? (c.identifierOf root) = some (c.define t) ∧
      (final.registry.registerAll final.staged).DepthFirst {c.identifierOf root}
        (c.define t).references ds ∧
      final.registry.claims = (c.define t :: ds).map claimOf := by
  have hsettled := (Walk.Settled.of_starts hgraph h).settled
  have hsound := (Registry.Sound.empty.of_starts_ok hgraph h).1
  have hregistered := fun d hd => hsound.get?_of_staged hsettled (d := d) hd
  cases h with
  | @built t claimed inner hname hclaim hinner =>
    obtain ⟨hmem, ht, rfl⟩ := described_eq_ok hgraph hname
    have hempty : ({ registry := {} } : Walk).known = ∅ := by
      ext id
      exact iff_of_false Bool.false_ne_true (Set.notMem_empty id)
    have hstart : ({ registry := {} } : Walk).Fresh :=
      ⟨rfl, fun id => iff_of_false Bool.false_ne_true Bool.false_ne_true⟩
    have hnew : claimed.knows ((c.resolver graph).identifier t) = false :=
      Walk.knows_of_claim hclaim _
    have hstaged : ((c.resolver graph).leave inner t).staged = inner.staged ++ [c.define t] := by
      rw [← define_resolver hgraph hmem]
      rfl
    obtain ⟨ds, hds⟩ := exists_traverses_of_visits hgraph hinner (hstart.enter hclaim) inner rfl
      fun d hd => hregistered d (hstaged ▸ List.mem_append_left _ hd)
    obtain ⟨hreferences, -, hclaims⟩ :=
      hds.inside ht hstart hclaim hnew (hinner.visiting_eq inner rfl)
    refine ⟨t, ds, rfl, ?_, ?_, hclaims⟩
    · rw [← id_define ht]
      exact hregistered _ (hstaged ▸ List.mem_append_right _ List.mem_cons_self)
    · rw [hempty, insert_empty_eq] at hreferences
      exact hreferences

end Catalog

/-! ### Documents -/

namespace Generator

/-- With an empty registry the identifiers are claimed in the order of the document. -/
theorem claims_document {g : Generator} {root : TypeName} {document : Document}
    (h : (g.document {} root).2.2 = .ok document) :
    (g.document {} root).1.claims =
      (document.id, root) :: document.definitions.map Catalog.claimOf := by
  obtain ⟨base, graph, walk, hprepared, hwalk⟩ := exists_walk h
  obtain ⟨hafter, hresult⟩ := hprepared.document_of_walk hwalk
  obtain ⟨t, ds, hname, hget, hds, hclaims⟩ := Catalog.exists_depthFirst_of_starts hprepared.closed
    (Resolver.starts_of_walkFrom hwalk)
  rw [h] at hresult
  cases hcollect : Resolver.collect (walk.registry.registerAll walk.staged)
      ((g.catalog base).identifierOf root) with
  | error failure =>
    rw [hcollect] at hresult
    cases hresult
  | ok resolved =>
    rw [hcollect] at hresult
    obtain rfl := Except.ok.inj hresult
    obtain ⟨hdefinition, hpreorder⟩ := Registry.collect_eq_ok_iff.mp hcollect
    rw [hget] at hdefinition
    have hdefine : (g.catalog base).define t = resolved.definition := Option.some.inj hdefinition
    have hsame : ds = resolved.definitions := by
      refine hds.unique ?_
      rw [hdefine]
      simpa using hpreorder.depthFirst
    have htype : resolved.definition.typeName = root := by
      rw [← hdefine]
      exact hname
    rw [hafter, Registry.claims_registerAll, hclaims, hdefine, hsame, ← htype]
    rfl

/-- In a registry that is closed under references every registered root is collected, with the
definitions that it leads to: these are found in the order of the recursive depth-first traversal,
each once and without the root, also where they lead back to it.  In the run of a root on its own
the identifiers are claimed in this order, after that of the root. -/
theorem definitions_depthFirst {registry : Registry} {id : CanonicalId}
    (hclosed : registry.ClosedUnderReferences) (hid : registry.contains id = true) (g : Generator)
    (root : TypeName) :
    (∃ resolved, Resolver.collect registry id = .ok resolved ∧
      registry.get? id = some resolved.definition ∧
      (∀ ds, registry.DepthFirst {id} resolved.definition.references ds ↔
        ds = resolved.definitions) ∧
      (resolved.definitions.map (·.id)).Nodup ∧
      ∀ d, d ∈ resolved.definitions ↔
        registry.get? d.id = some d ∧ d.id ≠ id ∧ registry.Reaches id d.id) ∧
    ∀ document, (g.document {} root).2.2 = .ok document →
      (g.document {} root).1.claims =
        (document.id, root) :: document.definitions.map Catalog.claimOf := by
  refine ⟨?_, fun document hdocument => claims_document hdocument⟩
  obtain ⟨resolved, hcollect⟩ := Registry.exists_collect hclosed hid
  obtain ⟨hget, hpreorder⟩ := Registry.collect_eq_ok_iff.mp hcollect
  have hdepth : registry.DepthFirst {id} resolved.definition.references resolved.definitions := by
    simpa using hpreorder.depthFirst
  refine ⟨resolved, hcollect, hget, fun ds => ⟨fun hds => hds.unique hdepth, ?_⟩,
    hpreorder.nodup.1, fun d => hpreorder.mem_iff hget⟩
  rintro rfl
  exact hdepth

/-- The declarations of a river that flows from a lake, which has a canal, to a sea, which has the
river as its tributary. -/
def river : Generator where
  unit :=
    { types :=
      [ { name := .topLevel "map" "River"
          declaration :=
            { name := "River"
              properties :=
                [ { name := "source", type := .named "Lake" },
                  { name := "mouth", type := .named "Sea" } ] }
          origin := "" },
        { name := .topLevel "map" "Lake"
          declaration :=
            { name := "Lake", properties := [{ name := "outflow", type := .named "Canal" }] }
          origin := "" },
        { name := .topLevel "map" "Sea"
          declaration :=
            { name := "Sea"
              properties :=
                [ { name := "tributaries", type := .list (.named "River") },
                  { name := "inlet", type := .named "Canal" } ] }
          origin := "" },
        { name := .topLevel "map" "Canal", declaration := { name := "Canal" }, origin := "" } ] }
  config := { baseUri := some ⟨"https://example.com"⟩ }

/-- After its own document the river leads to the lake, to the canal of the lake and then to the
sea, and the identifiers were claimed in this order. -/
theorem definitions_river :
    (river.registryAfter [.topLevel "map" "River"]).ClosedUnderReferences ∧
    (river.registryAfter [.topLevel "map" "River"]).contains
      ⟨"https://example.com/River.schema.json"⟩ = true ∧
    (∃ resolved, Resolver.collect (river.registryAfter [.topLevel "map" "River"])
        ⟨"https://example.com/River.schema.json"⟩ = .ok resolved ∧
      resolved.definitions.map (·.schemaName) = ["Lake", "Canal", "Sea"] ∧
      ∀ ds, (river.registryAfter [.topLevel "map" "River"]).DepthFirst
          {⟨"https://example.com/River.schema.json"⟩} resolved.definition.references ds ↔
        ds = resolved.definitions) ∧
    ∃ document, (river.document {} (.topLevel "map" "River")).2.2 = .ok document ∧
      (river.document {} (.topLevel "map" "River")).1.claims =
        (document.id, .topLevel "map" "River") :: document.definitions.map Catalog.claimOf := by
  have hbase : river.config.baseUri = some ⟨"https://example.com"⟩ := rfl
  have hclosed : (river.registryAfter [.topLevel "map" "River"]).ClosedUnderReferences :=
    (sound_registryAfter hbase _).closedUnderReferences
  have hroot : (river.registryAfter [.topLevel "map" "River"]).contains
      ⟨"https://example.com/River.schema.json"⟩ = true := rfl
  obtain ⟨⟨resolved, hcollect, -, hdepth, -, -⟩, hclaims⟩ :=
    definitions_depthFirst hclosed hroot river (.topLevel "map" "River")
  have hnames : (Resolver.collect (river.registryAfter [.topLevel "map" "River"])
      ⟨"https://example.com/River.schema.json"⟩).map
        (fun found => found.definitions.map (·.schemaName)) = .ok ["Lake", "Canal", "Sea"] := rfl
  rw [hcollect] at hnames
  exact ⟨hclosed, hroot, ⟨resolved, hcollect, Except.ok.inj hnames, hdepth⟩, _, rfl, hclaims _ rfl⟩

end Generator

end SchemaCompiler
