import SchemaCompiler.Definition.Resolution
import SchemaCompiler.Proofs.Definition.Registry
import SchemaCompiler.Proofs.TypeGraph.Closure

/-!
# The rules of a walk

`Resolver.Visits` says in rules how a walk over a list of names goes and ends, without a bound on
its depth, and `Resolver.Starts` how the walk of a root does.  The bounded walk follows these rules
(`Resolver.starts_walkFrom`): the types being built are distinct types of the graph, so the bound is
never used up.  All that is proved of walks is proved by induction on the rules.

Whatever its end, a walk extends the registry by claims and registers nothing
(`Visits.registry_extends`).
-/

namespace SchemaCompiler.Resolver

variable {r : Resolver}

/-- The rules of a walk over names: how it goes on from a state, and how it ends. -/
inductive Visits (r : Resolver) : Walk → List TypeName → Except Stopped Walk → Prop
  /-- No name is left. -/
  | done {walk : Walk} : Visits r walk [] (.ok walk)
  /-- The next name has no description. -/
  | undescribed {walk : Walk} {name : TypeName} {rest : List TypeName} {failure : Failure}
      (hname : r.described name = .error failure) :
      Visits r walk (name :: rest) (.error ⟨walk, failure⟩)
  /-- The identifier of the next type belongs to another type. -/
  | collided {walk : Walk} {name : TypeName} {rest : List TypeName} {t : TypeDescription}
      {stopped : Stopped} (hname : r.described name = .ok t)
      (hclaim : r.claim walk t = .error stopped) :
      Visits r walk (name :: rest) (.error stopped)
  /-- The next type has a definition or is being built. -/
  | known {walk claimed : Walk} {name : TypeName} {rest : List TypeName} {t : TypeDescription}
      {result : Except Stopped Walk} (hname : r.described name = .ok t)
      (hclaim : r.claim walk t = .ok claimed) (hknown : claimed.knows (r.identifier t) = true)
      (hrest : Visits r claimed rest result) :
      Visits r walk (name :: rest) result
  /-- Building the next type fails. -/
  | stopped {walk claimed : Walk} {name : TypeName} {rest : List TypeName} {t : TypeDescription}
      {stopped : Stopped} (hname : r.described name = .ok t)
      (hclaim : r.claim walk t = .ok claimed) (hnew : claimed.knows (r.identifier t) = false)
      (hinner : Visits r (r.enter claimed t) (r.config.build t).mentions (.error stopped)) :
      Visits r walk (name :: rest) (.error stopped)
  /-- The next type is built. -/
  | built {walk claimed inner : Walk} {name : TypeName} {rest : List TypeName}
      {t : TypeDescription} {result : Except Stopped Walk} (hname : r.described name = .ok t)
      (hclaim : r.claim walk t = .ok claimed) (hnew : claimed.knows (r.identifier t) = false)
      (hinner : Visits r (r.enter claimed t) (r.config.build t).mentions (.ok inner))
      (hrest : Visits r (r.leave inner t) rest result) :
      Visits r walk (name :: rest) result

/-- The rules of the walk of a root, which is built whether or not its definition is there. -/
inductive Starts (r : Resolver) (registry : Registry) (root : TypeName) :
    Except Stopped Walk → Prop
  | undescribed {failure : Failure} (hname : r.described root = .error failure) :
      Starts r registry root (.error ⟨{ registry }, failure⟩)
  | collided {t : TypeDescription} {stopped : Stopped} (hname : r.described root = .ok t)
      (hclaim : r.claim { registry } t = .error stopped) :
      Starts r registry root (.error stopped)
  | stopped {t : TypeDescription} {claimed : Walk} {stopped : Stopped}
      (hname : r.described root = .ok t) (hclaim : r.claim { registry } t = .ok claimed)
      (hinner : Visits r (r.enter claimed t) (r.config.build t).mentions (.error stopped)) :
      Starts r registry root (.error stopped)
  | built {t : TypeDescription} {claimed inner : Walk} (hname : r.described root = .ok t)
      (hclaim : r.claim { registry } t = .ok claimed)
      (hinner : Visits r (r.enter claimed t) (r.config.build t).mentions (.ok inner)) :
      Starts r registry root (.ok (r.leave inner t))

/-! ### Single steps -/

section Steps

variable {walk claimed : Walk} {t : TypeDescription} {name : TypeName} {stopped : Stopped}

/-- The description of a name is the one in the graph. -/
lemma described_eq_ok_iff : r.described name = .ok t ↔ r.graph.get? name = some t := by
  unfold described
  split
  · next u hu => simp [hu]
  · next hnone => simp [hnone]

/-- A successful claim of a walk is one of its registry, and changes nothing else. -/
lemma claim_eq_ok (h : r.claim walk t = .ok claimed) :
    ∃ registry, walk.registry.claim (r.identifier t) t.name = .ok registry ∧
      claimed = { walk with registry } := by
  unfold claim at h
  split at h
  · next registry hclaim => exact ⟨registry, hclaim, (Except.ok.inj h).symm⟩
  · cases h

/-- A claim of a walk fails where the identifier belongs to another type. -/
lemma claim_eq_error_iff : r.claim walk t = .error stopped ↔
    ∃ owner, walk.registry.owner? (r.identifier t) = some owner ∧ owner ≠ t.name ∧
      stopped = ⟨walk, .collision (r.identifier t) owner t.name⟩ := by
  unfold claim
  split
  · next registry hclaim =>
    constructor
    · intro h
      cases h
    · rintro ⟨owner, howner, hne, -⟩
      have herror : walk.registry.claim (r.identifier t) t.name = .error _ :=
        Registry.claim_eq_error_iff.mpr ⟨owner, howner, hne, rfl⟩
      rw [hclaim] at herror
      cases herror
  · next failure hclaim =>
    obtain ⟨owner, howner, hne, rfl⟩ := Registry.claim_eq_error_iff.mp hclaim
    constructor
    · intro h
      exact ⟨owner, howner, hne, (Except.error.inj h).symm⟩
    · rintro ⟨found, hfound, -, rfl⟩
      rw [Option.some.inj (howner.symm.trans hfound)]

/-- A claim keeps the types that are being built. -/
lemma visiting_of_claim (h : r.claim walk t = .ok claimed) : claimed.visiting = walk.visiting := by
  obtain ⟨registry, -, rfl⟩ := claim_eq_ok h
  rfl

/-- A claim keeps what has been built. -/
lemma staged_of_claim (h : r.claim walk t = .ok claimed) : claimed.staged = walk.staged := by
  obtain ⟨registry, -, rfl⟩ := claim_eq_ok h
  rfl

/-- A claim of a walk extends its registry. -/
lemma extends_of_claim (h : r.claim walk t = .ok claimed) :
    walk.registry.Extends claimed.registry := by
  obtain ⟨registry, hclaim, rfl⟩ := claim_eq_ok h
  exact Registry.extends_of_claim hclaim

/-- The identifier of a claimed type belongs to it. -/
lemma owner?_of_claim (h : r.claim walk t = .ok claimed) :
    claimed.registry.owner? (r.identifier t) = some t.name := by
  obtain ⟨registry, hclaim, rfl⟩ := claim_eq_ok h
  exact Registry.owner?_of_claim hclaim

@[simp] lemma registry_leave : (r.leave walk t).registry = walk.registry := rfl

/-- A type that is left is no longer being built, nor is any type that was entered since. -/
lemma visiting_leave_enter {inner : Walk} (h : inner.visiting = (r.enter walk t).visiting) :
    (r.leave inner t).visiting = walk.visiting := by
  rw [leave, h]
  exact List.erase_cons_head (r.identifier t) walk.visiting

/-- A name and a state leave one description and one claim. -/
lemma claimed_unique {u : TypeDescription} {other : Walk} (hname : r.described name = .ok t)
    (hname' : r.described name = .ok u) (hclaim : r.claim walk t = .ok claimed)
    (hclaim' : r.claim walk u = .ok other) : t = u ∧ claimed = other := by
  rw [hname] at hname'
  cases hname'
  rw [hclaim] at hclaim'
  exact ⟨rfl, Except.ok.inj hclaim'⟩

end Steps

/-! ### What every walk does -/

namespace Visits

variable {walk : Walk} {names : List TypeName} {result other : Except Stopped Walk}

/-- Whatever its end, a walk extends the registry by claims. -/
theorem registry_extends (h : r.Visits walk names result) :
    walk.registry.Extends (registryOf result) := by
  induction h with
  | done => exact .refl _
  | undescribed => exact .refl _
  | collided _ hclaim =>
    obtain ⟨-, -, -, rfl⟩ := claim_eq_error_iff.mp hclaim
    exact .refl _
  | known _ hclaim _ _ ih => exact (extends_of_claim hclaim).trans ih
  | stopped _ hclaim _ _ ih => exact (extends_of_claim hclaim).trans ih
  | built _ hclaim _ _ _ ihinner ihrest =>
    exact (extends_of_claim hclaim).trans (ihinner.trans ihrest)

/-- A successful walk ends with the types being built that it started with. -/
theorem visiting_eq (h : r.Visits walk names result) :
    ∀ final, result = .ok final → final.visiting = walk.visiting := by
  induction h with
  | done =>
    rintro final ⟨⟩
    rfl
  | undescribed | collided | stopped => nofun
  | known _ hclaim _ _ ih =>
    intro final hfinal
    rw [ih final hfinal, visiting_of_claim hclaim]
  | built _ hclaim _ _ _ ihinner ihrest =>
    intro final hfinal
    rw [ihrest final hfinal, visiting_leave_enter (ihinner _ rfl), visiting_of_claim hclaim]

/-- The rules leave no choice. -/
theorem unique (h : r.Visits walk names result) (h' : r.Visits walk names other) :
    result = other := by
  induction h generalizing other with
  | done => cases h'; rfl
  | undescribed hname => cases h' <;> simp_all
  | collided hname hclaim => cases h' <;> simp_all
  | known hname hclaim hknown _ ih =>
    cases h' with
    | known hname' hclaim' _ hrest' =>
      obtain ⟨rfl, rfl⟩ := claimed_unique hname hname' hclaim hclaim'
      exact ih hrest'
    | _ => simp_all
  | stopped hname hclaim hnew _ ih =>
    cases h' with
    | stopped hname' hclaim' _ hinner' =>
      obtain ⟨rfl, rfl⟩ := claimed_unique hname hname' hclaim hclaim'
      exact ih hinner'
    | built hname' hclaim' _ hinner' _ =>
      obtain ⟨rfl, rfl⟩ := claimed_unique hname hname' hclaim hclaim'
      cases ih hinner'
    | _ => simp_all
  | built hname hclaim hnew _ _ ihinner ihrest =>
    cases h' with
    | stopped hname' hclaim' _ hinner' =>
      obtain ⟨rfl, rfl⟩ := claimed_unique hname hname' hclaim hclaim'
      cases ihinner hinner'
    | built hname' hclaim' _ hinner' hrest' =>
      obtain ⟨rfl, rfl⟩ := claimed_unique hname hname' hclaim hclaim'
      cases ihinner hinner'
      exact ihrest hrest'
    | _ => simp_all

end Visits

/-! ### The bounded walk follows the rules -/

/-- A walk whose bound is not used up: the types being built are distinct types of the graph, and
the bound leaves room for the rest of them. -/
structure Fits (r : Resolver) (depth : Nat) (walk : Walk) : Prop where
  nodup : walk.visiting.Nodup
  subset : walk.visiting ⊆ r.graph.types.map r.identifier
  room : r.graph.types.length ≤ depth + walk.visiting.length

namespace Fits

variable {depth : Nat} {walk next : Walk} {t : TypeDescription}

/-- Only the types being built matter. -/
lemma congr (h : r.Fits depth walk) (hvisiting : next.visiting = walk.visiting) :
    r.Fits depth next :=
  ⟨hvisiting ▸ h.nodup, hvisiting ▸ h.subset, hvisiting ▸ h.room⟩

/-- A type that is not known can be entered with a smaller bound, and the bound is not zero. -/
lemma enter (h : r.Fits depth walk) (ht : t ∈ r.graph.types)
    (hnew : walk.knows (r.identifier t) = false) :
    ∃ smaller, depth = smaller + 1 ∧ r.Fits smaller (r.enter walk t) := by
  have hnotin : r.identifier t ∉ walk.visiting := by
    intro hmem
    simp [Walk.knows, hmem] at hnew
  have hnodup : (r.enter walk t).visiting.Nodup := List.nodup_cons.mpr ⟨hnotin, h.nodup⟩
  have hsubset : (r.enter walk t).visiting ⊆ r.graph.types.map r.identifier :=
    List.cons_subset.mpr ⟨List.mem_map_of_mem ht, h.subset⟩
  have hlength : (r.enter walk t).visiting.length = walk.visiting.length + 1 := rfl
  have hle := hnodup.length_le_of_subset hsubset
  rw [List.length_map] at hle
  have hroom := h.room
  refine ⟨depth - 1, by omega, hnodup, hsubset, by omega⟩

/-- The first type is entered with a bound of as many types as the graph has. -/
lemma first (ht : t ∈ r.graph.types) (hvisiting : walk.visiting = [r.identifier t]) :
    r.Fits r.graph.types.length walk where
  nodup := by
    rw [hvisiting]
    exact List.nodup_singleton _
  subset := by
    rw [hvisiting]
    exact List.cons_subset.mpr ⟨List.mem_map_of_mem ht, List.nil_subset _⟩
  room := Nat.le_add_right _ _

end Fits

/-- A bounded walk over names follows the rules if walks with a smaller bound do. -/
lemma visits_foldlM_of_smaller {depth : Nat}
    (hsmaller : ∀ smaller, depth = smaller + 1 → ∀ (walk : Walk) (names : List TypeName),
      r.Fits smaller walk → r.Visits walk names (names.foldlM (r.visit smaller) walk))
    {walk : Walk} {names : List TypeName} (hfits : r.Fits depth walk) :
    r.Visits walk names (names.foldlM (r.visit depth) walk) := by
  induction names generalizing walk with
  | nil => exact .done
  | cons name rest ih =>
    rw [List.foldlM_cons]
    unfold visit
    cases hname : r.described name with
    | error failure => exact .undescribed hname
    | ok t =>
      dsimp only
      cases hclaim : r.claim walk t with
      | error stopped => exact .collided hname hclaim
      | ok claimed =>
        have hclaimed : r.Fits depth claimed := hfits.congr (visiting_of_claim hclaim)
        cases hknown : claimed.knows (r.identifier t) with
        | true =>
          simp only [bind, Except.bind, hknown, if_true]
          exact .known hname hclaim hknown (ih hclaimed)
        | false =>
          have ht : t ∈ r.graph.types :=
            (TypeGraph.mem_of_get? (described_eq_ok_iff.mp hname)).1
          obtain ⟨smaller, rfl, hfitsInner⟩ := hclaimed.enter ht hknown
          have hinner := hsmaller smaller rfl _ (r.config.build t).mentions hfitsInner
          simp only [bind, Except.bind, hknown, Bool.false_eq_true, if_false, expand]
          cases hresult : (r.config.build t).mentions.foldlM (r.visit smaller)
              (r.enter claimed t) with
          | error stopped =>
            rw [hresult] at hinner
            exact .stopped hname hclaim hknown hinner
          | ok inner =>
            rw [hresult] at hinner
            have hleave : (r.leave inner t).visiting = claimed.visiting :=
              visiting_leave_enter (hinner.visiting_eq inner rfl)
            exact .built hname hclaim hknown hinner (ih (hclaimed.congr hleave))

/-- A bounded walk over names follows the rules. -/
theorem visits_foldlM {depth : Nat} {walk : Walk} {names : List TypeName}
    (hfits : r.Fits depth walk) :
    r.Visits walk names (names.foldlM (r.visit depth) walk) := by
  induction depth generalizing walk names with
  | zero => exact visits_foldlM_of_smaller (fun _ h => absurd h (Nat.succ_ne_zero _).symm) hfits
  | succ depth ih =>
    refine visits_foldlM_of_smaller (fun smaller h walk names hsmaller => ?_) hfits
    obtain rfl : depth = smaller := Nat.succ.inj h
    exact ih hsmaller

/-- The walk of a root follows the rules. -/
theorem starts_walkFrom (registry : Registry) (root : TypeName) :
    r.Starts registry root (r.walkFrom registry root) := by
  unfold walkFrom
  cases hname : r.described root with
  | error failure => exact .undescribed hname
  | ok t =>
    dsimp only
    cases hclaim : r.claim { registry } t with
    | error stopped => exact .collided hname hclaim
    | ok claimed =>
      have ht : t ∈ r.graph.types := (TypeGraph.mem_of_get? (described_eq_ok_iff.mp hname)).1
      have hfits : r.Fits r.graph.types.length (r.enter claimed t) := by
        refine .first ht ?_
        rw [enter, visiting_of_claim hclaim]
      have hinner : r.Visits (r.enter claimed t) (r.config.build t).mentions
          ((r.config.build t).mentions.foldlM (r.visit r.graph.types.length)
            (r.enter claimed t)) := visits_foldlM hfits
      simp only [bind, Except.bind, expand]
      cases hresult : (r.config.build t).mentions.foldlM (r.visit r.graph.types.length)
          (r.enter claimed t) with
      | error stopped =>
        rw [hresult] at hinner
        exact .stopped hname hclaim hinner
      | ok inner =>
        rw [hresult] at hinner
        exact .built hname hclaim hinner

/-- The end of the walk of a root follows from the rules. -/
lemma starts_of_walkFrom {registry : Registry} {root : TypeName} {result : Except Stopped Walk}
    (h : r.walkFrom registry root = result) : r.Starts registry root result :=
  h ▸ starts_walkFrom registry root

end SchemaCompiler.Resolver
