import Mathlib.Data.List.Nodup
import SchemaCompiler.Definition.Resolution
import SchemaCompiler.Proofs.Definition.Registry
import SchemaCompiler.Proofs.Outcome

/-!
# The definitions that a root leads to

`Registry.Preorder` says in rules which definitions pending identifiers lead to, and in which order,
without a bound on the steps.  The bounded search follows these rules (`reachable_eq_ok_iff`): what
was seen are distinct registered identifiers, so the bound is never used up.

The result is closed under references (`Preorder.closed`), has every identifier once
(`Preorder.nodup`), and depends on nothing but its own definitions (`Preorder.congr`): two
registries that agree on them lead to the same list.
-/

namespace SchemaCompiler.Registry

variable {registry other : Registry} {seen pending : List CanonicalId} {id : CanonicalId}
  {ds es : List Definition}

/-- The rules of the search: the definitions that pending identifiers lead to and that were not seen
before, depth first. -/
inductive Preorder (registry : Registry) :
    List CanonicalId → List CanonicalId → List Definition → Prop
  /-- Nothing is pending. -/
  | done {seen : List CanonicalId} : Preorder registry seen [] []
  /-- The next identifier was seen. -/
  | skip {seen rest : List CanonicalId} {id : CanonicalId} {ds : List Definition}
      (hseen : id ∈ seen) (hrest : Preorder registry seen rest ds) :
      Preorder registry seen (id :: rest) ds
  /-- The next definition is reached, and its references are pending first. -/
  | take {seen rest : List CanonicalId} {id : CanonicalId} {d : Definition} {ds : List Definition}
      (hnew : id ∉ seen) (hget : registry.get? id = some d)
      (hrest : Preorder registry (id :: seen) (d.references ++ rest) ds) :
      Preorder registry seen (id :: rest) (d :: ds)

/-- Every identifier that a definition refers to has a definition. -/
def ClosedUnderReferences (registry : Registry) : Prop :=
  ∀ d ∈ registry.definitions, ∀ id ∈ d.references, registry.contains id = true

/-- An identifier that has a definition is found. -/
lemma exists_get? (h : registry.contains id = true) : ∃ d, registry.get? id = some d := by
  obtain ⟨d, hd, hid⟩ := contains_iff.mp h
  have hfound : (registry.get? id).isSome := by
    rw [get?, List.find?_isSome]
    exact ⟨d, hd, beq_iff_eq.mpr hid⟩
  exact Option.isSome_iff_exists.mp hfound

/-! ### The bounded search follows the rules -/

/-- A bound that is not used up: what was seen are distinct registered identifiers, and there are
more steps than registered identifiers that were not seen. -/
structure Room (registry : Registry) (steps : Nat) (seen : List CanonicalId) : Prop where
  nodup : seen.Nodup
  subset : seen ⊆ registry.ids
  steps : registry.ids.length < steps + seen.length

namespace Room

variable {steps : Nat} {d : Definition}

/-- There is a step left. -/
lemma exists_succ (h : registry.Room steps seen) : ∃ fewer, steps = fewer + 1 := by
  have hle := h.nodup.length_le_of_subset h.subset
  have hsteps := h.steps
  exact ⟨steps - 1, by omega⟩

/-- A step that reaches a new definition leaves room for the others. -/
lemma take (h : registry.Room (steps + 1) seen) (hnew : id ∉ seen)
    (hget : registry.get? id = some d) : registry.Room steps (id :: seen) := by
  obtain ⟨hd, hid⟩ := mem_of_get? hget
  have hids : id ∈ registry.ids := hid ▸ List.mem_map_of_mem hd
  refine ⟨List.nodup_cons.mpr ⟨hnew, h.nodup⟩, List.cons_subset.mpr ⟨hids, h.subset⟩, ?_⟩
  have hsteps := h.steps
  rw [List.length_cons]
  omega

/-- The search that starts at a registered root has room. -/
lemma start (hget : registry.get? id = some d) :
    registry.Room (registry.definitions.length + 1) [id] := by
  obtain ⟨hd, hid⟩ := mem_of_get? hget
  have hids : id ∈ registry.ids := hid ▸ List.mem_map_of_mem hd
  refine ⟨List.nodup_singleton id, List.cons_subset.mpr ⟨hids, List.nil_subset _⟩, ?_⟩
  rw [ids, List.length_map, List.length_singleton]
  omega

end Room

/-- Identifiers that were seen can be passed over together. -/
lemma Preorder.of_dropWhile (h : registry.Preorder seen (pending.dropWhile seen.contains) ds) :
    registry.Preorder seen pending ds := by
  induction pending with
  | nil => exact h
  | cons id rest ih =>
    rw [List.dropWhile_cons] at h
    split at h
    · next hseen => exact .skip (List.contains_iff_mem.mp hseen) (ih h)
    · exact h

/-- What the bounded search finds follows the rules. -/
theorem Preorder.of_reachable {steps : Nat} (hroom : registry.Room steps seen)
    (h : Resolver.reachable registry steps seen pending = .ok ds) :
    registry.Preorder seen pending ds := by
  induction steps generalizing seen pending ds with
  | zero =>
    obtain ⟨fewer, hfewer⟩ := hroom.exists_succ
    exact absurd hfewer.symm (Nat.succ_ne_zero fewer)
  | succ steps ih =>
    unfold Resolver.reachable at h
    refine .of_dropWhile ?_
    split at h
    · next hdrop =>
      cases h
      rw [hdrop]
      exact .done
    · next id rest hdrop =>
      have hnew : id ∉ seen := by
        have hhead := List.head?_dropWhile_not seen.contains pending
        simpa [hdrop] using hhead
      rw [hdrop]
      split at h
      · cases h
      · next d hget =>
        simp only [bind_eq_ok_iff, pure_eq_ok_iff] at h
        obtain ⟨later, hlater, rfl⟩ := h
        exact .take hnew hget (ih (hroom.take hnew hget) hlater)

/-- What follows the rules is found by the bounded search. -/
theorem Preorder.reachable (h : registry.Preorder seen pending ds) {steps : Nat}
    (hroom : registry.Room steps seen) :
    Resolver.reachable registry steps seen pending = .ok ds := by
  induction h generalizing steps with
  | done =>
    obtain ⟨fewer, rfl⟩ := hroom.exists_succ
    rfl
  | skip hseen _ ih =>
    have hrest := ih hroom
    obtain ⟨fewer, rfl⟩ := hroom.exists_succ
    unfold Resolver.reachable at hrest ⊢
    rw [List.dropWhile_cons_of_pos (List.contains_iff_mem.mpr hseen)]
    exact hrest
  | @take seen rest id d ds hnew hget _ ih =>
    obtain ⟨fewer, rfl⟩ := hroom.exists_succ
    have hcontains : ¬ seen.contains id = true := fun h => hnew (List.contains_iff_mem.mp h)
    unfold Resolver.reachable
    rw [List.dropWhile_cons_of_neg hcontains]
    simp only [hget, bind_eq_ok_iff, pure_eq_ok_iff]
    exact ⟨ds, ih (hroom.take hnew hget), rfl⟩

/-- The collected root is its registered definition with what its references lead to. -/
theorem collect_eq_ok_iff {root : ResolvedRoot} : Resolver.collect registry id = .ok root ↔
    registry.get? id = some root.definition ∧
      registry.Preorder [id] root.definition.references root.definitions := by
  unfold Resolver.collect
  cases hget : registry.get? id with
  | none => simp
  | some d =>
    simp only [bind_eq_ok_iff, pure_eq_ok_iff, Option.some.injEq]
    constructor
    · rintro ⟨ds, hds, rfl⟩
      exact ⟨rfl, .of_reachable (.start hget) hds⟩
    · rintro ⟨rfl, hpreorder⟩
      exact ⟨root.definitions, hpreorder.reachable (.start hget), rfl⟩

/-- The search succeeds in a registry that is closed under references. -/
lemma exists_reachable (hclosed : registry.ClosedUnderReferences) (steps : Nat)
    (hpending : ∀ id ∈ pending, registry.contains id = true) :
    ∃ ds, Resolver.reachable registry steps seen pending = .ok ds := by
  induction steps generalizing seen pending with
  | zero => exact ⟨[], rfl⟩
  | succ steps ih =>
    unfold Resolver.reachable
    split
    · exact ⟨[], rfl⟩
    · next id rest hdrop =>
      have hsubset : id :: rest ⊆ pending := hdrop ▸ (List.dropWhile_sublist _).subset
      obtain ⟨hid, hrest⟩ := List.cons_subset.mp hsubset
      obtain ⟨d, hget⟩ := exists_get? (hpending id hid)
      have hnext : ∀ next ∈ d.references ++ rest, registry.contains next = true := by
        intro next hnext
        rcases List.mem_append.mp hnext with hnext | hnext
        · exact hclosed d (mem_of_get? hget).1 next hnext
        · exact hpending next (hrest hnext)
      obtain ⟨ds, hds⟩ : ∃ ds, Resolver.reachable registry steps (id :: seen)
          (d.references ++ rest) = .ok ds := ih hnext
      simp only [hget, bind_eq_ok_iff, pure_eq_ok_iff]
      exact ⟨d :: ds, ds, hds, rfl⟩

/-- A registered root of a registry that is closed under references is collected. -/
theorem exists_collect (hclosed : registry.ClosedUnderReferences)
    (hcontains : registry.contains id = true) :
    ∃ root, Resolver.collect registry id = .ok root := by
  obtain ⟨d, hget⟩ := exists_get? hcontains
  obtain ⟨ds, hds⟩ : ∃ ds, Resolver.reachable registry (registry.definitions.length + 1) [id]
      d.references = .ok ds := exists_reachable hclosed _ (hclosed d (mem_of_get? hget).1)
  refine ⟨⟨d, ds⟩, ?_⟩
  simp only [Resolver.collect, hget, bind_eq_ok_iff, pure_eq_ok_iff]
  exact ⟨ds, hds, rfl⟩

/-- The search looks at nothing but the definitions. -/
lemma reachable_congr (h : other.definitions = registry.definitions) (steps : Nat)
    (seen pending : List CanonicalId) :
    Resolver.reachable other steps seen pending =
      Resolver.reachable registry steps seen pending := by
  induction steps generalizing seen pending with
  | zero => rfl
  | succ steps ih =>
    have hget : ∀ id, other.get? id = registry.get? id := fun id => by rw [get?, get?, h]
    simp only [Resolver.reachable, hget, ih]

/-- What is collected depends on nothing but the definitions. -/
lemma collect_congr (h : other.definitions = registry.definitions) (id : CanonicalId) :
    Resolver.collect other id = Resolver.collect registry id := by
  have hget : other.get? id = registry.get? id := by rw [get?, get?, h]
  simp only [Resolver.collect, hget, h, reachable_congr h]

/-! ### What the search finds -/

namespace Preorder

/-- The rules leave no choice. -/
theorem unique (h : registry.Preorder seen pending ds) (h' : registry.Preorder seen pending es) :
    ds = es := by
  induction h generalizing es with
  | done =>
    cases h'
    rfl
  | skip hseen _ ih =>
    cases h' with
    | skip _ hrest => exact ih hrest
    | take hnew => exact absurd hseen hnew
  | take hnew hget _ ih =>
    cases h' with
    | skip hseen => exact absurd hseen hnew
    | take _ hget' hrest =>
      rw [hget] at hget'
      cases hget'
      rw [ih hrest]

/-- What is found is registered, and found under its identifier. -/
lemma get?_of_mem (h : registry.Preorder seen pending ds) :
    ∀ d ∈ ds, registry.get? d.id = some d := by
  induction h with
  | done => nofun
  | skip _ _ ih => exact ih
  | take _ hget _ ih =>
    refine List.forall_mem_cons.mpr ⟨?_, ih⟩
    rw [(mem_of_get? hget).2, hget]

/-- Registries that agree on what is found lead to the same. -/
theorem congr (h : registry.Preorder seen pending ds)
    (hagree : ∀ d ∈ ds, other.get? d.id = some d) : other.Preorder seen pending ds := by
  induction h with
  | done => exact .done
  | skip hseen _ ih => exact .skip hseen (ih hagree)
  | take hnew hget _ ih =>
    obtain ⟨hhead, htail⟩ := List.forall_mem_cons.mp hagree
    rw [(mem_of_get? hget).2] at hhead
    exact .take hnew hhead (ih htail)

/-- What is found was not seen, and is found once. -/
theorem nodup (h : registry.Preorder seen pending ds) :
    (ds.map (·.id)).Nodup ∧ ∀ d ∈ ds, d.id ∉ seen := by
  induction h with
  | done => exact ⟨List.nodup_nil, nofun⟩
  | skip _ _ ih => exact ih
  | take hnew hget _ ih =>
    obtain ⟨hnodup, hnotin⟩ := ih
    obtain rfl := (mem_of_get? hget).2
    refine ⟨List.nodup_cons.mpr ⟨?_, hnodup⟩, List.forall_mem_cons.mpr ⟨hnew, ?_⟩⟩
    · intro hmem
      obtain ⟨d, hd, hid⟩ := List.mem_map.mp hmem
      exact hnotin d hd (hid ▸ List.mem_cons_self)
    · intro d hd hseen
      exact hnotin d hd (List.mem_cons_of_mem _ hseen)

/-- What is pending was seen or is found, and so are the references of what is found. -/
theorem closed (h : registry.Preorder seen pending ds) :
    (∀ id ∈ pending, id ∈ seen ∨ ∃ d ∈ ds, d.id = id) ∧
      ∀ d ∈ ds, ∀ id ∈ d.references, id ∈ seen ∨ ∃ e ∈ ds, e.id = id := by
  induction h with
  | done => exact ⟨nofun, nofun⟩
  | skip hseen _ ih => exact ⟨List.forall_mem_cons.mpr ⟨Or.inl hseen, ih.1⟩, ih.2⟩
  | @take seen rest id d ds hnew hget _ ih =>
    obtain rfl := (mem_of_get? hget).2
    -- What the later search saw or found was seen, is this definition, or is found later.
    have hweaken : ∀ {next}, (next ∈ d.id :: seen ∨ ∃ e ∈ ds, e.id = next) →
        next ∈ seen ∨ ∃ e ∈ d :: ds, e.id = next := by
      rintro next (hmem | ⟨e, he, hid⟩)
      · rcases List.mem_cons.mp hmem with rfl | hmem
        · exact Or.inr ⟨d, List.mem_cons_self, rfl⟩
        · exact Or.inl hmem
      · exact Or.inr ⟨e, List.mem_cons_of_mem _ he, hid⟩
    obtain ⟨hpending, hreferences⟩ := ih
    refine ⟨List.forall_mem_cons.mpr ⟨?_, ?_⟩, List.forall_mem_cons.mpr ⟨?_, ?_⟩⟩
    · exact Or.inr ⟨d, List.mem_cons_self, rfl⟩
    · exact fun next hnext => hweaken (hpending next (List.mem_append_right _ hnext))
    · exact fun next hnext => hweaken (hpending next (List.mem_append_left _ hnext))
    · exact fun e he next hnext => hweaken (hreferences e he next hnext)

/-- What holds of the pending identifiers and passes along references holds of what is found. -/
theorem forall_mem {P : CanonicalId → Prop} (h : registry.Preorder seen pending ds)
    (hpending : ∀ id ∈ pending, P id)
    (hstep : ∀ d ∈ ds, P d.id → ∀ id ∈ d.references, P id) : ∀ d ∈ ds, P d.id := by
  induction h with
  | done => nofun
  | skip _ _ ih => exact ih (List.forall_mem_cons.mp hpending).2 hstep
  | take hnew hget _ ih =>
    obtain rfl := (mem_of_get? hget).2
    obtain ⟨hid, hrest⟩ := List.forall_mem_cons.mp hpending
    obtain ⟨hself, hlater⟩ := List.forall_mem_cons.mp hstep
    refine List.forall_mem_cons.mpr ⟨hid, ih ?_ hlater⟩
    exact List.forall_mem_append.mpr ⟨hself hid, hrest⟩

end Preorder

end SchemaCompiler.Registry
