import SchemaCompiler.Proofs.Definition.ForeignClaims
import SchemaCompiler.Proofs.Schema.Documentation

/-!
# Resolution under other documentation

Two runs that differ in their documentation resolve a root alike (`Resolver.resolve_alike`).  Their
registries hold the same claims, and definitions that are equal without documentation
(`Registry.Alike`).  A walk looks at identifiers, claims and mentions only, so the rules lead the
second walk wherever they lead the first one (`Visits.exists_alike`).
-/

namespace SchemaCompiler

/-! ### States that are alike -/

/-- Two computations that both succeed or both fail, with what is related. -/
inductive EndsAlike {ε α : Type} (E : ε → ε → Prop) (R : α → α → Prop) :
    Except ε α → Except ε α → Prop
  | ok {a b : α} (h : R a b) : EndsAlike E R (.ok a) (.ok b)
  | error {e f : ε} (h : E e f) : EndsAlike E R (.error e) (.error f)

/-- Computations that go on alike from what is related end alike. -/
lemma EndsAlike.bind {ε α β : Type} {E : ε → ε → Prop} {R : α → α → Prop} {S : β → β → Prop}
    {first second : Except ε α} {next next' : α → Except ε β} (h : EndsAlike E R first second)
    (hnext : ∀ a b, R a b → EndsAlike E S (next a) (next' b)) :
    EndsAlike E S (first >>= next) (second >>= next') := by
  cases h with
  | ok h => exact hnext _ _ h
  | error h => exact .error h

/-- Values made alike of what is related are related. -/
lemma EndsAlike.map {ε α β : Type} {E : ε → ε → Prop} {R : α → α → Prop} {S : β → β → Prop}
    {first second : Except ε α} {f : α → β} (h : EndsAlike E R first second)
    (hf : ∀ a b, R a b → S (f a) (f b)) : EndsAlike E S (first.map f) (second.map f) := by
  cases h with
  | ok h => exact .ok (hf _ _ h)
  | error h => exact .error h

/-- The definition without documentation. -/
def Definition.undocumented (d : Definition) : Definition := { d with node := d.node.undocumented }

/-- Documentation is no identifier. -/
lemma Definition.id_eq {d e : Definition} (h : d.undocumented = e.undocumented) : d.id = e.id :=
  (Definition.mk.inj h).1

/-- Documentation holds no reference. -/
lemma Definition.references_eq {d e : Definition} (h : d.undocumented = e.undocumented) :
    d.references = e.references :=
  (Definition.mk.inj h).2.2.2.2

/-- Definitions that are equal, one by one, without documentation. -/
def Definition.AllAlike (ds es : List Definition) : Prop :=
  ds.map Definition.undocumented = es.map Definition.undocumented

/-- Registries with the same claims and with definitions that are alike. -/
structure Registry.Alike (first second : Registry) : Prop where
  claims : first.claims = second.claims
  definitions : Definition.AllAlike first.definitions second.definitions

/-- Walks in the same state, but for documentation. -/
structure Walk.Alike (first second : Walk) : Prop where
  registry : first.registry.Alike second.registry
  visiting : first.visiting = second.visiting
  staged : Definition.AllAlike first.staged second.staged
  findings : first.findings = second.findings

/-- Walks that failed for the same reason in the same state, but for documentation. -/
structure Stopped.Alike (first second : Stopped) : Prop where
  walk : first.walk.Alike second.walk
  failure : first.failure = second.failure

/-- Roots that are equal without documentation, and so are the definitions that they lead to. -/
structure ResolvedRoot.Alike (first second : ResolvedRoot) : Prop where
  definition : first.definition.undocumented = second.definition.undocumented
  definitions : Definition.AllAlike first.definitions second.definitions

namespace Definition.AllAlike

variable {ds es more others : List Definition}

/-- Definitions that are alike have the same identifiers. -/
lemma ids_eq (h : AllAlike ds es) : ds.map (·.id) = es.map (·.id) := by
  have hids := congrArg (List.map (·.id)) h
  rwa [List.map_map, List.map_map] at hids

/-- The same identifiers are among them. -/
lemma any_eq (h : AllAlike ds es) (id : CanonicalId) :
    (ds.any fun d => d.id == id) = es.any fun d => d.id == id := by
  have hany := congrArg (List.any · (· == id)) h.ids_eq
  rwa [List.any_map, List.any_map] at hany

/-- What is found under an identifier is alike. -/
lemma find?_eq (h : AllAlike ds es) (id : CanonicalId) :
    (ds.find? fun d => d.id == id).map undocumented =
      (es.find? fun d => d.id == id).map undocumented := by
  have hfind := congrArg (List.find? fun d : Definition => d.id == id) h
  rwa [List.find?_map, List.find?_map] at hfind

/-- Definitions that are added keep lists alike. -/
lemma append (h : AllAlike ds es) (h' : AllAlike more others) :
    AllAlike (ds ++ more) (es ++ others) := by
  unfold AllAlike
  rw [List.map_append, List.map_append, h, h']

end Definition.AllAlike

namespace Registry.Alike

variable {first second : Registry} {id : CanonicalId} {name : TypeName}

/-- Identifiers belong to the same types. -/
lemma owner?_eq (h : first.Alike second) (id : CanonicalId) :
    first.owner? id = second.owner? id := by
  rw [owner?, owner?, h.claims]

/-- What is claimed in one registry can be claimed in the other. -/
lemma claim_ok (h : first.Alike second) {claimed : Registry}
    (hclaim : first.claim id name = .ok claimed) :
    ∃ claimed', second.claim id name = .ok claimed' ∧ claimed.Alike claimed' := by
  unfold claim at hclaim ⊢
  rw [h.owner?_eq] at hclaim
  cases howner : second.owner? id with
  | none =>
    rw [howner] at hclaim
    cases hclaim
    refine ⟨_, rfl, ⟨?_, h.definitions⟩⟩
    rw [h.claims]
  | some owner =>
    rw [howner] at hclaim
    dsimp only at hclaim ⊢
    split at hclaim
    · next hname =>
      cases hclaim
      exact ⟨second, if_pos hname, h⟩
    · cases hclaim

/-- Registration keeps registries alike. -/
lemma register (h : first.Alike second) {d e : Definition} (hd : d.undocumented = e.undocumented) :
    (first.register d).Alike (second.register e) := by
  have hcontains : first.contains d.id = second.contains e.id := by
    rw [Definition.id_eq hd]
    exact h.definitions.any_eq e.id
  unfold Registry.register
  rw [hcontains]
  split
  · exact h
  · refine ⟨h.claims, h.definitions.append ?_⟩
    unfold Definition.AllAlike
    rw [List.map_singleton, List.map_singleton, hd]

/-- Registration of definitions that are alike keeps registries alike. -/
lemma registerAll {ds es : List Definition} (h : first.Alike second)
    (hds : Definition.AllAlike ds es) : (first.registerAll ds).Alike (second.registerAll es) := by
  induction ds generalizing es first second with
  | nil =>
    obtain rfl : es = [] := List.map_eq_nil_iff.mp hds.symm
    exact h
  | cons d ds ih =>
    cases es with
    | nil => cases hds
    | cons e es =>
      obtain ⟨hd, hds⟩ := List.cons.inj hds
      change ((first.register d).registerAll ds).Alike ((second.register e).registerAll es)
      exact ih (h.register hd) hds

end Registry.Alike

/-! ### Walks -/

namespace Resolver

variable {r : Resolver} {title : TitlePolicy} {description : DescriptionPolicy}
  {first second claimed : Walk} {names : List TypeName} {root : TypeName} {t : TypeDescription}
  {result : Except Stopped Walk}

/-- The resolver under other settings for titles and descriptions. -/
def redocumented (r : Resolver) (title : TitlePolicy) (description : DescriptionPolicy) :
    Resolver :=
  { r with config := r.config.redocumented title description }

/-- Without documentation, types have the same definitions. -/
lemma undocumented_define (r : Resolver) (title : TitlePolicy) (description : DescriptionPolicy)
    (t : TypeDescription) :
    (r.define t).undocumented = ((r.redocumented title description).define t).undocumented := by
  have hnode : ((r.config.build t).link r.identifierOf).undocumented =
      (((r.config.redocumented title description).build t).link r.identifierOf).undocumented := by
    rw [Node.undocumented_link, Node.undocumented_link, Configuration.undocumented_build]
  have hreferences : ((r.config.build t).link r.identifierOf).references =
      (((r.config.redocumented title description).build t).link r.identifierOf).references := by
    rw [Node.references, Node.references,
      Node.targets_link _ _ (Configuration.build_within _ t).targets,
      Node.targets_link _ _ (Configuration.build_within _ t).targets,
      Configuration.mentions_redocumented]
  calc (r.define t).undocumented
      = { id := r.identifier t, typeName := t.name, schemaName := t.schemaName,
          node := ((r.config.build t).link r.identifierOf).undocumented,
          references := ((r.config.build t).link r.identifierOf).references } := rfl
    _ = ((r.redocumented title description).define t).undocumented := by
      rw [hnode, hreferences]
      rfl

end Resolver

namespace Walk.Alike

variable {r : Resolver} {title : TitlePolicy} {description : DescriptionPolicy}
  {first second claimed : Walk} {t : TypeDescription}

/-- The same identifiers are known. -/
lemma knows (h : first.Alike second) (id : CanonicalId) : first.knows id = second.knows id := by
  rw [Walk.knows, Walk.knows, h.visiting, h.staged.any_eq, Registry.contains, Registry.contains,
    h.registry.definitions.any_eq]

/-- What one walk claims, the other claims too. -/
lemma claim_ok (h : first.Alike second) (hclaim : r.claim first t = .ok claimed) :
    ∃ claimed', (r.redocumented title description).claim second t = .ok claimed' ∧
      claimed.Alike claimed' := by
  obtain ⟨registry, hregistry, rfl⟩ := Resolver.claim_eq_ok hclaim
  obtain ⟨registry', hregistry', halike⟩ := h.registry.claim_ok hregistry
  refine ⟨{ second with registry := registry' }, ?_, halike, h.visiting, h.staged, h.findings⟩
  have hid : (r.redocumented title description).identifier t = r.identifier t := rfl
  rw [Resolver.claim, hid, hregistry']

/-- Where one walk collides, the other one does. -/
lemma claim_error (h : first.Alike second) {stopped : Stopped}
    (hclaim : r.claim first t = .error stopped) :
    ∃ failure, stopped = ⟨first, failure⟩ ∧
      (r.redocumented title description).claim second t = .error ⟨second, failure⟩ := by
  obtain ⟨owner, howner, hne, rfl⟩ := Resolver.claim_eq_error_iff.mp hclaim
  refine ⟨_, rfl, Resolver.claim_eq_error_iff.mpr ⟨owner, ?_, hne, rfl⟩⟩
  rwa [h.registry.owner?_eq] at howner

/-- Both walks enter a type. -/
lemma enter (h : first.Alike second) :
    (r.enter first t).Alike ((r.redocumented title description).enter second t) where
  registry := h.registry
  visiting := congrArg (r.identifier t :: ·) h.visiting
  staged := h.staged
  findings := congrArg (· ++ r.config.buildFindings t) h.findings

/-- Both walks leave a type. -/
lemma leave (h : first.Alike second) :
    (r.leave first t).Alike ((r.redocumented title description).leave second t) where
  registry := h.registry
  visiting := congrArg (List.erase · (r.identifier t)) h.visiting
  staged := h.staged.append (congrArg ([·]) (r.undocumented_define title description t))
  findings := h.findings

end Walk.Alike

namespace Resolver

variable {r : Resolver} {title : TitlePolicy} {description : DescriptionPolicy}
  {first second : Walk} {names : List TypeName} {root : TypeName} {registry other : Registry}
  {result : Except Stopped Walk}

/-- Under other documentation a walk over names goes on and ends alike. -/
theorem Visits.exists_alike (h : r.Visits first names result) (halike : first.Alike second) :
    ∃ result', (r.redocumented title description).Visits second names result' ∧
      EndsAlike Stopped.Alike Walk.Alike result result' := by
  induction h generalizing second with
  | done => exact ⟨_, .done, .ok halike⟩
  | undescribed hname => exact ⟨_, .undescribed hname, .error ⟨halike, rfl⟩⟩
  | collided hname hclaim =>
    obtain ⟨failure, rfl, hclaim'⟩ := halike.claim_error hclaim
    exact ⟨_, .collided hname hclaim', .error ⟨halike, rfl⟩⟩
  | known hname hclaim hknown _ ih =>
    obtain ⟨claimed', hclaim', hclaimed⟩ := halike.claim_ok hclaim
    obtain ⟨result', hrest, hends⟩ := ih hclaimed
    exact ⟨result', .known hname hclaim' ((hclaimed.knows _).symm.trans hknown) hrest, hends⟩
  | stopped hname hclaim hnew _ ih =>
    obtain ⟨claimed', hclaim', hclaimed⟩ := halike.claim_ok hclaim
    obtain ⟨result', hinner, hends⟩ := ih hclaimed.enter
    rw [← Configuration.mentions_redocumented _ title description] at hinner
    cases hends with
    | error hends =>
      exact ⟨_, .stopped hname hclaim' ((hclaimed.knows _).symm.trans hnew) hinner, .error hends⟩
  | built hname hclaim hnew _ _ ihinner ihrest =>
    obtain ⟨claimed', hclaim', hclaimed⟩ := halike.claim_ok hclaim
    obtain ⟨inner', hinner, hends⟩ := ihinner hclaimed.enter
    rw [← Configuration.mentions_redocumented _ title description] at hinner
    cases hends with
    | ok hends =>
      obtain ⟨result', hrest, hends⟩ := ihrest hends.leave
      exact ⟨result', .built hname hclaim' ((hclaimed.knows _).symm.trans hnew) hinner hrest, hends⟩

/-- Under other documentation the walk of a root goes on and ends alike. -/
lemma Starts.exists_alike (h : r.Starts registry root result) (halike : registry.Alike other) :
    ∃ result', (r.redocumented title description).Starts other root result' ∧
      EndsAlike Stopped.Alike Walk.Alike result result' := by
  have hstart : Walk.Alike { registry } { registry := other } := ⟨halike, rfl, rfl, rfl⟩
  cases h with
  | undescribed hname => exact ⟨_, .undescribed hname, .error ⟨hstart, rfl⟩⟩
  | collided hname hclaim =>
    obtain ⟨failure, rfl, hclaim'⟩ := hstart.claim_error hclaim
    exact ⟨_, .collided hname hclaim', .error ⟨hstart, rfl⟩⟩
  | stopped hname hclaim hinner =>
    obtain ⟨claimed', hclaim', hclaimed⟩ := hstart.claim_ok hclaim
    obtain ⟨result', hinner', hends⟩ := hinner.exists_alike hclaimed.enter
    rw [← Configuration.mentions_redocumented _ title description] at hinner'
    cases hends with
    | error hends => exact ⟨_, .stopped hname hclaim' hinner', .error hends⟩
  | built hname hclaim hinner =>
    obtain ⟨claimed', hclaim', hclaimed⟩ := hstart.claim_ok hclaim
    obtain ⟨result', hinner', hends⟩ := hinner.exists_alike hclaimed.enter
    rw [← Configuration.mentions_redocumented _ title description] at hinner'
    cases hends with
    | ok hends => exact ⟨_, .built hname hclaim' hinner', .ok hends.leave⟩

/-- Under other documentation the walk of a root ends alike. -/
theorem walkFrom_alike (r : Resolver) (title : TitlePolicy) (description : DescriptionPolicy)
    (root : TypeName) (halike : registry.Alike other) :
    EndsAlike Stopped.Alike Walk.Alike (r.walkFrom registry root)
      ((r.redocumented title description).walkFrom other root) := by
  obtain ⟨result', hstarts, hends⟩ := (starts_walkFrom registry root).exists_alike halike
  rwa [hstarts.unique (starts_walkFrom other root)] at hends

/-! ### Roots -/

/-- Under an identifier, registries that are alike hold definitions that are alike, or none. -/
lemma get?_alike (halike : registry.Alike other) (id : CanonicalId) :
    (registry.get? id = none ∧ other.get? id = none) ∨
      ∃ d e, registry.get? id = some d ∧ other.get? id = some e ∧
        d.undocumented = e.undocumented := by
  have hfind := halike.definitions.find?_eq id
  cases hfirst : registry.definitions.find? fun d => d.id == id with
  | none =>
    rw [hfirst] at hfind
    exact Or.inl ⟨hfirst, Option.map_eq_none_iff.mp hfind.symm⟩
  | some d =>
    rw [hfirst] at hfind
    obtain ⟨e, hsecond, he⟩ := Option.map_eq_some_iff.mp hfind.symm
    exact Or.inr ⟨d, e, hfirst, hsecond, he.symm⟩

/-- From the same identifiers, definitions that are alike are reached. -/
lemma reachable_alike (halike : registry.Alike other) (steps : Nat)
    (seen pending : List CanonicalId) :
    EndsAlike Eq Definition.AllAlike (reachable registry steps seen pending)
      (reachable other steps seen pending) := by
  induction steps generalizing seen pending with
  | zero => exact .ok rfl
  | succ steps ih =>
    unfold reachable
    cases pending.dropWhile seen.contains with
    | nil => exact .ok rfl
    | cons id rest =>
      dsimp only
      rcases get?_alike halike id with ⟨hfirst, hsecond⟩ | ⟨d, e, hfirst, hsecond, hd⟩
      · rw [hfirst, hsecond]
        exact .error rfl
      · rw [hfirst, hsecond]
        dsimp only
        rw [Definition.references_eq hd]
        exact (ih (id :: seen) (e.references ++ rest)).bind fun ds es hall =>
          .ok (List.cons_eq_cons.mpr ⟨hd, hall⟩)

/-- From registries that are alike, roots are read off alike. -/
lemma collect_alike (halike : registry.Alike other) (id : CanonicalId) :
    EndsAlike Eq ResolvedRoot.Alike (collect registry id) (collect other id) := by
  unfold collect
  rcases get?_alike halike id with ⟨hfirst, hsecond⟩ | ⟨d, e, hfirst, hsecond, hd⟩
  · rw [hfirst, hsecond]
    exact .error rfl
  · have hlength : registry.definitions.length = other.definitions.length := by
      simpa using congrArg List.length halike.definitions
    rw [hfirst, hsecond]
    dsimp only
    rw [Definition.references_eq hd, hlength]
    exact (reachable_alike halike (other.definitions.length + 1) [id] e.references).bind
      fun ds es hall => .ok ⟨hd, hall⟩

/-- Under other documentation a root is resolved alike: the registries after it are alike, the same
is found, and the root and its definitions are equal without documentation, or resolution fails for
the same reason. -/
theorem resolve_alike (r : Resolver) (title : TitlePolicy) (description : DescriptionPolicy)
    (root : TypeName) (halike : registry.Alike other) :
    (r.resolve registry root).1.Alike ((r.redocumented title description).resolve other root).1 ∧
      (r.resolve registry root).2.1 = ((r.redocumented title description).resolve other root).2.1 ∧
      EndsAlike Eq ResolvedRoot.Alike (r.resolve registry root).2.2
        ((r.redocumented title description).resolve other root).2.2 := by
  have hends := walkFrom_alike r title description root halike
  unfold resolve
  generalize r.walkFrom registry root = first at hends
  generalize (r.redocumented title description).walkFrom other root = second at hends
  cases hends with
  | error hstopped =>
    exact ⟨hstopped.walk.registry, hstopped.walk.findings, .error hstopped.failure⟩
  | ok hwalk =>
    have hafter := hwalk.registry.registerAll hwalk.staged
    refine ⟨hafter, hwalk.findings, ?_⟩
    have hdescribed : (r.redocumented title description).described root = r.described root := rfl
    dsimp only
    rw [hdescribed]
    cases r.described root with
    | error failure => exact .error rfl
    | ok t => exact collect_alike hafter (r.identifier t)

end Resolver

end SchemaCompiler
