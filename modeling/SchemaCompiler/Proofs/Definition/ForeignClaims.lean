import SchemaCompiler.Proofs.Definition.Walk

/-!
# Walks among foreign claims

How a walk goes on when its registry holds the claims of another registry besides its own.  The
definitions are the same, so nothing but a claim can turn out differently.  Either the walk takes
the same course to the same end, or it is blocked: it needs an identifier that a foreign claim gives
to another type (`Resolver.Follows`).  The simulation is proved by induction on the rules
(`Visits.exists_follows`) and carried over to the walk of a root (`Starts.follows`).
-/

namespace SchemaCompiler

/-! ### Registries and walks with foreign claims -/

/-- A registry with the definitions of another one, its owners, and those of a foreign one. -/
structure Registry.WithClaims (foreign plain registry : Registry) : Prop where
  definitions : registry.definitions = plain.definitions
  owner : ∀ id name, registry.owner? id = some name ↔
    plain.owner? id = some name ∨ foreign.owner? id = some name

/-- No identifier belongs to different types in two registries. -/
def Registry.Compatible (first second : Registry) : Prop :=
  ∀ id owner name, first.owner? id = some owner → second.owner? id = some name → owner = name

/-- A registry that extends another one is compatible with it. -/
lemma Registry.compatible_of_extends {before after : Registry} (h : before.Extends after) :
    after.Compatible before := by
  intro id owner name howner hname
  have hlater := h.owner hname
  rw [howner] at hlater
  exact Option.some.inj hlater

/-- A walk in the same state as another one, among foreign claims. -/
structure Walk.WithClaims (foreign : Registry) (plain walk : Walk) : Prop where
  visiting : walk.visiting = plain.visiting
  staged : walk.staged = plain.staged
  registry : Registry.WithClaims foreign plain.registry walk.registry

namespace Walk.WithClaims

variable {r : Resolver} {foreign : Registry} {plain walk claimed : Walk} {t : TypeDescription}

/-- Foreign claims make nothing known. -/
lemma knows (h : WithClaims foreign plain walk) (id : CanonicalId) :
    walk.knows id = plain.knows id := by
  simp only [Walk.knows, Registry.contains, h.visiting, h.staged, h.registry.definitions]

/-- Both walks enter a type. -/
lemma enter (h : WithClaims foreign plain walk) :
    WithClaims foreign (r.enter plain t) (r.enter walk t) where
  visiting := by rw [Resolver.enter, Resolver.enter, h.visiting]
  staged := h.staged
  registry := h.registry

/-- Both walks leave a type. -/
lemma leave (h : WithClaims foreign plain walk) :
    WithClaims foreign (r.leave plain t) (r.leave walk t) where
  visiting := by rw [Resolver.leave, Resolver.leave, h.visiting]
  staged := by rw [Resolver.leave, Resolver.leave, h.staged]
  registry := h.registry

/-- What one walk claims, the other claims too, unless a foreign claim gives the identifier to
another type. -/
lemma claim_or (h : WithClaims foreign plain walk) (hclaim : r.claim plain t = .ok claimed) :
    (∃ claimed', r.claim walk t = .ok claimed' ∧ WithClaims foreign claimed claimed') ∨
      ∃ owner, foreign.owner? (r.identifier t) = some owner ∧ owner ≠ t.name ∧
        r.claim walk t = .error ⟨walk, .collision (r.identifier t) owner t.name⟩ := by
  obtain ⟨registry, hregistry, rfl⟩ := Resolver.claim_eq_ok hclaim
  obtain ⟨hdefinitions, howner⟩ := Registry.claim_eq_ok hregistry
  cases hwalk : r.claim walk t with
  | error stopped =>
    obtain ⟨owner, howns, hne, rfl⟩ := Resolver.claim_eq_error_iff.mp hwalk
    rcases (h.registry.owner _ _).mp howns with hplain | hforeign
    · -- The other walk could not have claimed the identifier.
      have hlater := (Registry.extends_of_claim hregistry).owner hplain
      rw [Registry.owner?_of_claim hregistry] at hlater
      exact absurd (Option.some.inj hlater).symm hne
    · exact Or.inr ⟨owner, hforeign, hne, rfl⟩
  | ok claimed' =>
    obtain ⟨registry', hregistry', rfl⟩ := Resolver.claim_eq_ok hwalk
    obtain ⟨hdefinitions', howner'⟩ := Registry.claim_eq_ok hregistry'
    refine Or.inl ⟨_, rfl, h.visiting, h.staged, ?_, fun id name => ?_⟩
    · rw [hdefinitions, hdefinitions']
      exact h.registry.definitions
    · rw [howner, howner']
      split
      · next heq =>
        -- A foreign owner of the claimed identifier can be the claiming type only.
        refine ⟨Or.inl, fun hname => hname.elim (fun hself => hself) fun hforeign => ?_⟩
        have hlater := (Registry.extends_of_claim hregistry').owner
          ((h.registry.owner id name).mpr (Or.inr hforeign))
        rwa [howner', if_pos heq] at hlater
      · exact h.registry.owner id name

/-- Where one walk collides, the other one does. -/
lemma claim_error (h : WithClaims foreign plain walk) {stopped : Stopped}
    (hclaim : r.claim plain t = .error stopped) :
    ∃ failure, stopped = ⟨plain, failure⟩ ∧ r.claim walk t = .error ⟨walk, failure⟩ := by
  obtain ⟨owner, howns, hne, rfl⟩ := Resolver.claim_eq_error_iff.mp hclaim
  refine ⟨_, rfl, Resolver.claim_eq_error_iff.mpr ⟨owner, ?_, hne, rfl⟩⟩
  exact (h.registry.owner _ _).mpr (Or.inl howns)

end Walk.WithClaims

/-! ### The simulation -/

namespace Resolver

variable {r : Resolver} {foreign : Registry}

/-- The end of a walk among foreign claims, compared with that of the walk without them. -/
inductive Follows (foreign : Registry) : Except Stopped Walk → Except Stopped Walk → Prop
  /-- Both succeed alike. -/
  | ok {plain walk : Walk} (hwalk : Walk.WithClaims foreign plain walk) :
      Follows foreign (.ok plain) (.ok walk)
  /-- Both fail alike. -/
  | error {plain walk : Walk} {failure : Failure} (hwalk : Walk.WithClaims foreign plain walk) :
      Follows foreign (.error ⟨plain, failure⟩) (.error ⟨walk, failure⟩)
  /-- The foreign claims give an identifier to one type and the walk without them to another. -/
  | blocked {plain : Except Stopped Walk} {walk : Walk} {id : CanonicalId} {owner name : TypeName}
      (hforeign : foreign.owner? id = some owner)
      (hplain : (registryOf plain).owner? id = some name) (hne : owner ≠ name) :
      Follows foreign plain (.error ⟨walk, .collision id owner name⟩)

/-- Among foreign claims a walk over names follows the walk without them. -/
theorem Visits.exists_follows {plain walk : Walk} {names : List TypeName}
    {result : Except Stopped Walk} (h : r.Visits plain names result)
    (hclaims : Walk.WithClaims foreign plain walk) :
    ∃ result', r.Visits walk names result' ∧ Follows foreign result result' := by
  induction h generalizing walk with
  | done => exact ⟨_, .done, .ok hclaims⟩
  | undescribed hname => exact ⟨_, .undescribed hname, .error hclaims⟩
  | collided hname hclaim =>
    obtain ⟨failure, rfl, hclaim'⟩ := hclaims.claim_error hclaim
    exact ⟨_, .collided hname hclaim', .error hclaims⟩
  | known hname hclaim hknown hrest ih =>
    rcases hclaims.claim_or hclaim with
      ⟨claimed', hclaim', hclaimed⟩ | ⟨owner, hforeign, hne, herror⟩
    · obtain ⟨result', hvisits, hfollows⟩ := ih hclaimed
      exact ⟨result', .known hname hclaim' ((hclaimed.knows _).trans hknown) hvisits, hfollows⟩
    · have howner := hrest.registry_extends.owner (owner?_of_claim hclaim)
      exact ⟨_, .collided hname herror, .blocked hforeign howner hne⟩
  | stopped hname hclaim hnew hinner ih =>
    rcases hclaims.claim_or hclaim with
      ⟨claimed', hclaim', hclaimed⟩ | ⟨owner, hforeign, hne, herror⟩
    · have hnew' := (hclaimed.knows _).trans hnew
      obtain ⟨result', hvisits, hfollows⟩ := ih hclaimed.enter
      cases hfollows with
      | error hwalk => exact ⟨_, .stopped hname hclaim' hnew' hvisits, .error hwalk⟩
      | blocked hforeign hplain hne =>
        exact ⟨_, .stopped hname hclaim' hnew' hvisits, .blocked hforeign hplain hne⟩
    · have hclaimed := owner?_of_claim hclaim
      have howner := hinner.registry_extends.owner hclaimed
      exact ⟨_, .collided hname herror, .blocked hforeign howner hne⟩
  | built hname hclaim hnew hinner hrest ihinner ihrest =>
    rcases hclaims.claim_or hclaim with
      ⟨claimed', hclaim', hclaimed⟩ | ⟨owner, hforeign, hne, herror⟩
    · have hnew' := (hclaimed.knows _).trans hnew
      obtain ⟨inner', hvisits, hfollows⟩ := ihinner hclaimed.enter
      cases hfollows with
      | ok hwalk =>
        obtain ⟨result', hvisitsRest, hfollowsRest⟩ := ihrest hwalk.leave
        exact ⟨result', .built hname hclaim' hnew' hvisits hvisitsRest, hfollowsRest⟩
      | blocked hforeign hplain hne =>
        have howner := hrest.registry_extends.owner hplain
        exact ⟨_, .stopped hname hclaim' hnew' hvisits, .blocked hforeign howner hne⟩
    · have hclaimed := owner?_of_claim hclaim
      have howner := hrest.registry_extends.owner (hinner.registry_extends.owner hclaimed)
      exact ⟨_, .collided hname herror, .blocked hforeign howner hne⟩

/-- The rules of the walk of a root leave no choice. -/
theorem Starts.unique {registry : Registry} {root : TypeName} {result other : Except Stopped Walk}
    (h : r.Starts registry root result) (h' : r.Starts registry root other) : result = other := by
  cases h with
  | undescribed hname => cases h' <;> simp_all
  | collided hname hclaim => cases h' <;> simp_all
  | stopped hname hclaim hinner =>
    cases h' with
    | stopped hname' hclaim' hinner' =>
      obtain ⟨rfl, rfl⟩ := claimed_unique hname hname' hclaim hclaim'
      exact hinner.unique hinner'
    | built hname' hclaim' hinner' =>
      obtain ⟨rfl, rfl⟩ := claimed_unique hname hname' hclaim hclaim'
      cases hinner.unique hinner'
    | _ => simp_all
  | built hname hclaim hinner =>
    cases h' with
    | stopped hname' hclaim' hinner' =>
      obtain ⟨rfl, rfl⟩ := claimed_unique hname hname' hclaim hclaim'
      cases hinner.unique hinner'
    | built hname' hclaim' hinner' =>
      obtain ⟨rfl, rfl⟩ := claimed_unique hname hname' hclaim hclaim'
      cases hinner.unique hinner'
      rfl
    | _ => simp_all

/-- Among foreign claims the walk of a root follows the walk without them. -/
lemma Starts.exists_follows {plain registry : Registry} {root : TypeName}
    {result : Except Stopped Walk} (h : r.Starts plain root result)
    (hclaims : Registry.WithClaims foreign plain registry) :
    ∃ result', r.Starts registry root result' ∧ Follows foreign result result' := by
  have hstart : Walk.WithClaims foreign { registry := plain } { registry } := ⟨rfl, rfl, hclaims⟩
  cases h with
  | undescribed hname => exact ⟨_, .undescribed hname, .error hstart⟩
  | collided hname hclaim =>
    obtain ⟨failure, rfl, hclaim'⟩ := hstart.claim_error hclaim
    exact ⟨_, .collided hname hclaim', .error hstart⟩
  | stopped hname hclaim hinner =>
    rcases hstart.claim_or hclaim with
      ⟨claimed', hclaim', hclaimed⟩ | ⟨owner, hforeign, hne, herror⟩
    · obtain ⟨result', hvisits, hfollows⟩ := hinner.exists_follows hclaimed.enter
      cases hfollows with
      | error hwalk => exact ⟨_, .stopped hname hclaim' hvisits, .error hwalk⟩
      | blocked hforeign hplain hne =>
        exact ⟨_, .stopped hname hclaim' hvisits, .blocked hforeign hplain hne⟩
    · have hclaimed := owner?_of_claim hclaim
      have howner := hinner.registry_extends.owner hclaimed
      exact ⟨_, .collided hname herror, .blocked hforeign howner hne⟩
  | built hname hclaim hinner =>
    rcases hstart.claim_or hclaim with
      ⟨claimed', hclaim', hclaimed⟩ | ⟨owner, hforeign, hne, herror⟩
    · obtain ⟨inner', hvisits, hfollows⟩ := hinner.exists_follows hclaimed.enter
      cases hfollows with
      | ok hwalk => exact ⟨_, .built hname hclaim' hvisits, .ok hwalk.leave⟩
      | blocked hforeign hplain hne =>
        exact ⟨_, .stopped hname hclaim' hvisits, .blocked hforeign hplain hne⟩
    · have hclaimed := owner?_of_claim hclaim
      have howner := hinner.registry_extends.owner hclaimed
      exact ⟨_, .collided hname herror, .blocked hforeign howner hne⟩

/-- Among foreign claims the walk from a root follows the walk without them. -/
theorem walkFrom_follows {plain registry : Registry} (root : TypeName)
    (hclaims : Registry.WithClaims foreign plain registry) :
    Follows foreign (r.walkFrom plain root) (r.walkFrom registry root) := by
  obtain ⟨result', hstarts, hfollows⟩ := (starts_walkFrom plain root).exists_follows hclaims
  rwa [hstarts.unique (starts_walkFrom registry root)] at hfollows

/-! ### Collisions -/

/-- A walk that ends in a collision has found the owner that the failure names. -/
theorem Visits.owner?_of_collision {walk : Walk} {names : List TypeName}
    {result : Except Stopped Walk} (h : r.Visits walk names result) {final : Walk}
    {id : CanonicalId} {owner name : TypeName}
    (hresult : result = .error ⟨final, .collision id owner name⟩) :
    final.registry.owner? id = some owner := by
  induction h with
  | done => cases hresult
  | undescribed hname =>
    cases hresult
    unfold described at hname
    split at hname <;> cases hname
  | collided _ hclaim =>
    obtain ⟨found, hfound, -, rfl⟩ := claim_eq_error_iff.mp hclaim
    cases hresult
    exact hfound
  | known _ _ _ _ ih => exact ih hresult
  | stopped _ _ _ _ ih => exact ih hresult
  | built _ _ _ _ _ _ ih => exact ih hresult

/-- A root that ends in a collision has found the owner that the failure names. -/
theorem Starts.owner?_of_collision {registry : Registry} {root : TypeName} {final : Walk}
    {id : CanonicalId} {owner name : TypeName}
    (h : r.Starts registry root (.error ⟨final, .collision id owner name⟩)) :
    final.registry.owner? id = some owner := by
  cases h with
  | undescribed hname =>
    unfold described at hname
    split at hname <;> cases hname
  | collided _ hclaim =>
    obtain ⟨found, hfound, -, heq⟩ := claim_eq_error_iff.mp hclaim
    cases heq
    exact hfound
  | stopped _ _ hinner => exact hinner.owner?_of_collision rfl

end Resolver

end SchemaCompiler
