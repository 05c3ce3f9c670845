import Mathlib.Data.List.Nodup
import SchemaCompiler.Definition.Registry

/-!
# Laws of the registry

What claiming and registering do to a registry, seen through the owner of an identifier, the
definitions, and the identifiers that have one.  A claim gives one identifier an owner and leaves
the definitions alone; a registration adds a definition under a new identifier and leaves the owners
alone.  `Registry.Extends` is what any number of claims does: the definitions stay, and so does
every owner.
-/

namespace SchemaCompiler.Registry

variable {registry before after : Registry} {id other : CanonicalId} {name owner : TypeName}
  {d e : Definition} {batch : List Definition}

/-! ### Claims -/

/-- A claim succeeds exactly when the identifier belongs to no other type; then it belongs to the
type that claims it, and nothing else changes. -/
lemma claim_eq_ok (h : registry.claim id name = .ok after) :
    after.definitions = registry.definitions ∧
      ∀ other, after.owner? other = if other = id then some name else registry.owner? other := by
  unfold claim at h
  split at h
  · next owner howner =>
    split at h
    · next heq =>
      cases h
      refine ⟨rfl, fun other => ?_⟩
      split
      · next hother => rw [hother, howner, heq]
      · rfl
    · cases h
  · next hnone =>
    cases h
    refine ⟨rfl, fun other => ?_⟩
    rw [owner?] at hnone
    simp only [owner?, List.lookup_append, List.lookup_cons, List.lookup_nil]
    by_cases hother : other = id
    · simp [hother, hnone]
    · simp [hother, beq_eq_false_iff_ne.mpr hother]

/-- A claim fails exactly when the identifier belongs to another type, which the failure names. -/
lemma claim_eq_error_iff {failure : Failure} :
    registry.claim id name = .error failure ↔
      ∃ owner, registry.owner? id = some owner ∧ owner ≠ name ∧
        failure = .collision id owner name := by
  unfold claim
  split
  · next owner howner =>
    split
    · next heq => simp [howner, heq]
    · next hne =>
      constructor
      · intro h
        exact ⟨owner, howner, hne, (Except.error.inj h).symm⟩
      · rintro ⟨found, hfound, -, rfl⟩
        rw [Option.some.inj (howner.symm.trans hfound)]
  · next hnone => simp [hnone]

/-- What claims alone do to a registry: the definitions stay, and every owner stays. -/
structure Extends (before after : Registry) : Prop where
  definitions : after.definitions = before.definitions
  owner : ∀ {id name}, before.owner? id = some name → after.owner? id = some name

namespace Extends

/-- No claim is no change. -/
@[refl] lemma refl (registry : Registry) : registry.Extends registry := ⟨rfl, id⟩

/-- Claims follow each other. -/
lemma trans {first second third : Registry} (h : first.Extends second) (h' : second.Extends third) :
    first.Extends third :=
  ⟨h'.definitions.trans h.definitions, fun hid => h'.owner (h.owner hid)⟩

/-- The same identifiers have definitions. -/
lemma contains (h : before.Extends after) : after.contains id = before.contains id := by
  rw [Registry.contains, Registry.contains, h.definitions]

end Extends

/-- A successful claim extends a registry. -/
lemma extends_of_claim (h : registry.claim id name = .ok after) : registry.Extends after := by
  obtain ⟨hdefinitions, howner⟩ := claim_eq_ok h
  refine ⟨hdefinitions, fun {other owner} hother => ?_⟩
  rw [howner other]
  split
  · next heq =>
    -- An identifier that has an owner can be claimed by this owner only.
    unfold claim at h
    rw [← heq, hother] at h
    dsimp only at h
    split at h
    · next hname => rw [hname]
    · cases h
  · exact hother

/-- What was claimed belongs to the type that claimed it. -/
lemma owner?_of_claim (h : registry.claim id name = .ok after) : after.owner? id = some name := by
  rw [(claim_eq_ok h).2 id, if_pos rfl]

/-- A claimed owner is an earlier one or the type that claims. -/
lemma owner?_or_of_claim (h : registry.claim id name = .ok after)
    (howner : after.owner? other = some owner) :
    registry.owner? other = some owner ∨ other = id ∧ owner = name := by
  rw [(claim_eq_ok h).2 other] at howner
  split at howner
  · next heq => exact Or.inr ⟨heq, (Option.some.inj howner).symm⟩
  · exact Or.inl howner

/-- The claim of an identifier that has an owner changes nothing. -/
lemma eq_of_claim_of_owned (howned : (registry.owner? id).isSome = true)
    (h : registry.claim id name = .ok after) : after = registry := by
  obtain ⟨owner, howner⟩ := Option.isSome_iff_exists.mp howned
  unfold claim at h
  rw [howner] at h
  dsimp only at h
  split at h
  · exact (Except.ok.inj h).symm
  · cases h

/-- The claim of an identifier that has no owner is noted after the earlier claims. -/
lemma claims_of_claim (hfree : registry.owner? id = none)
    (h : registry.claim id name = .ok after) :
    after.claims = registry.claims ++ [(id, name)] := by
  unfold claim at h
  rw [hfree] at h
  rw [← Except.ok.inj h]

/-! ### Definitions -/

/-- An identifier has a definition exactly if some definition carries it. -/
lemma contains_iff : registry.contains id = true ↔ ∃ d ∈ registry.definitions, d.id = id := by
  simp [contains]

/-- The definition found for an identifier is registered and carries it. -/
lemma mem_of_get? (h : registry.get? id = some d) : d ∈ registry.definitions ∧ d.id = id :=
  ⟨List.mem_of_find?_eq_some h, by simpa [get?] using List.find?_some h⟩

/-- A registered definition is found under its identifier when no identifier has two. -/
lemma get?_of_mem (hnodup : registry.ids.Nodup) (hd : d ∈ registry.definitions) :
    registry.get? d.id = some d := by
  have hfound : (registry.get? d.id).isSome := by
    rw [get?, List.find?_isSome]
    exact ⟨d, hd, beq_self_eq_true d.id⟩
  obtain ⟨found, hget⟩ := Option.isSome_iff_exists.mp hfound
  obtain ⟨hmem, hid⟩ := mem_of_get? hget
  rw [hget, List.inj_on_of_nodup_map hnodup hmem hd hid]

/-! ### Registration -/

/-- Registration leaves the owners alone. -/
@[simp] lemma owner?_register : (registry.register d).owner? id = registry.owner? id := by
  unfold register
  split <;> rfl

/-- Registration leaves the claims alone. -/
@[simp] lemma claims_register : (registry.register d).claims = registry.claims := by
  unfold register
  split <;> rfl

/-- What is registered was there before, or is the new definition under a new identifier. -/
lemma mem_register : e ∈ (registry.register d).definitions ↔
    e ∈ registry.definitions ∨ registry.contains d.id ≠ true ∧ e = d := by
  unfold register
  split
  · next h => simp [h]
  · next h => simp [h]

/-- After a registration the identifier has a definition, as do those that had one. -/
lemma contains_register : (registry.register d).contains id = true ↔
    registry.contains id = true ∨ d.id = id := by
  unfold register
  split
  · next h =>
    refine ⟨Or.inl, fun hid => hid.elim (fun hold => hold) fun heq => heq ▸ h⟩
  · simp [contains, List.any_append]

/-- Registration keeps identifiers distinct. -/
lemma nodup_register (h : registry.ids.Nodup) : (registry.register d).ids.Nodup := by
  unfold register
  split
  · exact h
  · next hnew =>
    have hfresh : ∀ x ∈ registry.definitions, x.id ≠ d.id := by
      intro x hx heq
      exact hnew (contains_iff.mpr ⟨x, hx, heq⟩)
    simpa [ids, List.nodup_append] using ⟨h, hfresh⟩

/-- An empty batch changes nothing. -/
@[simp] lemma registerAll_nil (registry : Registry) : registry.registerAll [] = registry := rfl

/-- The first definition of a batch is registered before the others. -/
@[simp] lemma registerAll_cons (registry : Registry) (d : Definition) (batch : List Definition) :
    registry.registerAll (d :: batch) = (registry.register d).registerAll batch := rfl

/-- What every registration keeps, a batch keeps. -/
lemma registerAll_preserves {P : Registry → Prop} (hstart : P registry)
    (hstep : ∀ registry d, P registry → P (registry.register d)) :
    P (registry.registerAll batch) := by
  induction batch generalizing registry with
  | nil => exact hstart
  | cons d batch ih => exact ih (hstep registry d hstart)

/-- Registering a batch leaves the owners alone. -/
@[simp] lemma owner?_registerAll : (registry.registerAll batch).owner? id = registry.owner? id :=
  registerAll_preserves (P := fun after => after.owner? id = registry.owner? id) rfl
    fun _ _ h => owner?_register.trans h

/-- Registering a batch leaves the claims alone. -/
@[simp] lemma claims_registerAll : (registry.registerAll batch).claims = registry.claims :=
  registerAll_preserves (P := fun after => after.claims = registry.claims) rfl
    fun _ _ h => claims_register.trans h

/-- What is registered was there before or comes from the batch. -/
lemma mem_of_mem_registerAll (h : e ∈ (registry.registerAll batch).definitions) :
    e ∈ registry.definitions ∨ e ∈ batch := by
  induction batch generalizing registry with
  | nil => exact Or.inl h
  | cons d batch ih =>
    rcases ih h with h | h
    · rcases mem_register.mp h with h | ⟨-, rfl⟩
      · exact Or.inl h
      · exact Or.inr List.mem_cons_self
    · exact Or.inr (List.mem_cons_of_mem _ h)

/-- What is registered stays. -/
lemma mem_registerAll_of_mem (h : e ∈ registry.definitions) :
    e ∈ (registry.registerAll batch).definitions :=
  registerAll_preserves (P := fun after => e ∈ after.definitions) h
    fun _ _ h => mem_register.mpr (Or.inl h)

/-- After a batch the identifiers of the batch have definitions, as do those that had one. -/
lemma contains_registerAll : (registry.registerAll batch).contains id = true ↔
    registry.contains id = true ∨ ∃ d ∈ batch, d.id = id := by
  induction batch generalizing registry with
  | nil => simp
  | cons d batch ih =>
    rw [registerAll_cons, ih, contains_register, or_assoc]
    simp

/-- What is registered depends on the definitions and not on the owners. -/
lemma definitions_registerAll_congr (h : after.definitions = before.definitions) :
    (after.registerAll batch).definitions = (before.registerAll batch).definitions := by
  induction batch generalizing before after with
  | nil => exact h
  | cons d batch ih =>
    refine ih ?_
    have hcontains : after.contains d.id = before.contains d.id := by rw [contains, contains, h]
    unfold register
    rw [hcontains]
    by_cases hknown : before.contains d.id = true
    · rw [if_pos hknown, if_pos hknown, h]
    · rw [if_neg hknown, if_neg hknown, h]

/-- Registering a batch keeps identifiers distinct. -/
lemma nodup_registerAll (h : registry.ids.Nodup) : (registry.registerAll batch).ids.Nodup :=
  registerAll_preserves (P := fun after => after.ids.Nodup) h fun _ _ h => nodup_register h

end SchemaCompiler.Registry
