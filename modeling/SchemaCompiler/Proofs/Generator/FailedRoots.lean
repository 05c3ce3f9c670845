import SchemaCompiler.Proofs.Definition.ForeignClaims
import SchemaCompiler.Proofs.Generator.SharedRegistry

/-!
# Documents after a failed root

A root that fails registers nothing, but the identifiers that its walk has claimed stay claimed.  A
later root has the same outcome as without the failed one exactly if no identifier is claimed for
two types by them (`document_eq_after_failure_iff`).  In particular a root can fail for no other
reason than that another root has failed before it.
-/

namespace SchemaCompiler.Generator

variable {g : Generator} {registry : Registry} {root failed : TypeName} {base : BaseUri}
  {graph : TypeGraph} {failure : Failure}

/-- The document of a root has the owners that its walk leaves behind. -/
lemma Prepared.owner?_document (h : g.Prepared root base graph) (id : CanonicalId) :
    (g.document registry root).1.owner? id =
      (Resolver.registryOf
        (((g.catalog base).resolver graph).walkFrom registry root)).owner? id := by
  cases hwalk : ((g.catalog base).resolver graph).walkFrom registry root with
  | ok walk => rw [(h.document_of_walk hwalk).1, Registry.owner?_registerAll, Resolver.registryOf]
  | error stopped => rw [(h.document_of_stopped hwalk).1, Resolver.registryOf]

/-- A prepared root whose walk does not find an owner does not report a collision with it. -/
lemma Prepared.document_ne_collision (h : g.Prepared root base graph)
    (hsound : registry.Sound (g.catalog base)) {id : CanonicalId} {owner name : TypeName}
    (howner : (g.document registry root).1.owner? id ≠ some owner) :
    (g.document registry root).2.2 ≠ .error (.collision id owner name) := by
  intro hresult
  cases hwalk : ((g.catalog base).resolver graph).walkFrom registry root with
  | ok walk =>
    obtain ⟨d, hd, -⟩ := exists_readOff h hsound hwalk
    rw [hd] at hresult
    cases hresult
  | error stopped =>
    obtain ⟨hafter, hfailure⟩ := h.document_of_stopped hwalk
    obtain ⟨final, reason⟩ := stopped
    rw [hfailure] at hresult
    cases hresult
    have hstarts := Resolver.starts_of_walkFrom hwalk
    exact howner (hafter ▸ hstarts.owner?_of_collision)

/-- Foreign claims change the outcome of a prepared root exactly if they give an identifier to
another type than its walk does. -/
theorem Prepared.document_eq_iff (h : g.Prepared root base graph)
    (hsound : registry.Sound (g.catalog base)) {foreign claimed : Registry}
    (hclaims : Registry.WithClaims foreign registry claimed) :
    (g.document claimed root).2.2 = (g.document registry root).2.2 ↔
      foreign.Compatible (g.document registry root).1 := by
  have hfollows :=
    Resolver.walkFrom_follows (r := (g.catalog base).resolver graph) root hclaims
  -- A walk of the same course ends among all foreign claims, so none of them contradicts it.
  have hcompatible : ∀ {plain walk : Walk},
      Resolver.registryOf (((g.catalog base).resolver graph).walkFrom registry root) =
        plain.registry →
      Walk.WithClaims foreign plain walk → foreign.Compatible (g.document registry root).1 := by
    intro plain walk hplain hwalk id owner name howner hname
    rw [h.owner?_document, hplain] at hname
    have hleft := (hwalk.registry.owner id owner).mpr (Or.inr howner)
    rw [(hwalk.registry.owner id name).mpr (Or.inl hname)] at hleft
    exact (Option.some.inj hleft).symm
  generalize hplain : ((g.catalog base).resolver graph).walkFrom registry root = plain at hfollows
  generalize hwalk : ((g.catalog base).resolver graph).walkFrom claimed root = other at hfollows
  cases hfollows with
  | @ok plain walk hsame =>
    refine iff_of_true ?_ (hcompatible (by rw [hplain, Resolver.registryOf]) hsame)
    rw [(h.document_of_walk hplain).2, (h.document_of_walk hwalk).2, hsame.staged,
      Registry.collect_congr (Registry.definitions_registerAll_congr hsame.registry.definitions)]
  | error hsame =>
    refine iff_of_true ?_ (hcompatible (by rw [hplain, Resolver.registryOf]) hsame)
    rw [(h.document_of_stopped hplain).2, (h.document_of_stopped hwalk).2]
  | @blocked _ _ id owner name hforeign hclaimed hne =>
    have hname : (g.document registry root).1.owner? id = some name := by
      rw [h.owner?_document, hplain, hclaimed]
    have howner : (g.document registry root).1.owner? id ≠ some owner := by
      rw [hname]
      exact fun heq => hne (Option.some.inj heq).symm
    refine iff_of_false ?_ fun hall => hne (hall id owner name hforeign hname)
    rw [(h.document_of_stopped hwalk).2]
    exact fun heq => h.document_ne_collision hsound howner heq.symm

/-- After a root that failed, another root has the same outcome as before it exactly if no
identifier is claimed for one type after the failure and for a different type by the other root. -/
theorem document_eq_after_failure_iff (g : Generator) (earlier : List TypeName)
    (failed root : TypeName) (failure : Failure)
    (hfailed : (g.document (g.registryAfter earlier) failed).2.2 = .error failure) :
    (g.document (g.document (g.registryAfter earlier) failed).1 root).2.2 =
        (g.document (g.registryAfter earlier) root).2.2 ↔
      ∀ id owner name, (g.document (g.registryAfter earlier) failed).1.owner? id = some owner →
        (g.document (g.registryAfter earlier) root).1.owner? id = some name → owner = name := by
  have hsound : ∀ base, g.config.baseUri = some base →
      (g.registryAfter earlier).Sound (g.catalog base) :=
    fun base hbase => sound_registryAfter hbase earlier
  have hextends := extends_of_document_eq_error hsound hfailed
  rcases g.prepared_or root with ⟨base, graph, hprepared⟩ | ⟨reason, hreason⟩
  · refine hprepared.document_eq_iff (hsound base hprepared.base) ⟨hextends.definitions, ?_⟩
    intro id name
    exact ⟨Or.inr, fun hname => hname.elim (fun hbefore => hextends.owner hbefore) fun hid => hid⟩
  · rw [(hreason _).2, (hreason _).2, (hreason (g.registryAfter earlier)).1]
    exact iff_of_true rfl (Registry.compatible_of_extends hextends)

/-! ### A root that fails because of another one -/

/-- A type with a property of each of some declared types. -/
def referringType (name : TypeName) (targets : List String) : DeclaredType where
  name := name
  declaration :=
    { name := name.simple
      properties := targets.map fun target => { name := target, type := .named target } }
  origin := ""

/-- Two packages declare a type of the same name.  One root needs both of these types, the other one
needs the second alone. -/
def twoPackages : Generator where
  unit :=
    { types :=
      [ referringType (.topLevel "first" "Shared") [],
        referringType (.topLevel "second" "Shared") [],
        referringType (.topLevel "app" "Both") ["first.Shared", "second.Shared"],
        referringType (.topLevel "app" "Second") ["second.Shared"] ] }
  config := { baseUri := some ⟨"https://example.com"⟩ }

/-- The root that needs both types fails and keeps the identifier for the first one, so the root
that needs the second alone, which has a document before the failure, has none after it. -/
theorem document_ne_after_failure :
    (twoPackages.document (twoPackages.registryAfter []) (.topLevel "app" "Both")).2.2 =
        .error (.collision ⟨"https://example.com/Shared.schema.json"⟩ (.topLevel "first" "Shared")
          (.topLevel "second" "Shared")) ∧
      ¬ (twoPackages.document
            (twoPackages.document (twoPackages.registryAfter []) (.topLevel "app" "Both")).1
            (.topLevel "app" "Second")).2.2 =
          (twoPackages.document (twoPackages.registryAfter []) (.topLevel "app" "Second")).2.2 := by
  have hfailed : (twoPackages.document (twoPackages.registryAfter [])
      (.topLevel "app" "Both")).2.2 = .error (.collision ⟨"https://example.com/Shared.schema.json"⟩
        (.topLevel "first" "Shared") (.topLevel "second" "Shared")) := rfl
  refine ⟨hfailed, fun hsame => ?_⟩
  have hcompatible := (document_eq_after_failure_iff twoPackages [] _ _ _ hfailed).mp hsame
  have howner : TypeName.topLevel "first" "Shared" = .topLevel "second" "Shared" :=
    hcompatible ⟨"https://example.com/Shared.schema.json"⟩ _ _ rfl rfl
  exact absurd howner (by decide)

end SchemaCompiler.Generator
