import SchemaCompiler.Proofs.Schema.Parts

/-!
# Properties that building keeps

`Configuration.BuildClosed` says that a property of schemas is closed under every step by which the
schemas of types and of properties are built: the schema of each form of type, keywords of
constraints and annotations merged into one, another schema of elements or values, and null beside a
schema.  It then holds of every part of these schemas (`BuildClosed.typeNode`,
`BuildClosed.propertyNode`), by one induction on types and one pass over what constraints change.
-/

namespace SchemaCompiler.Configuration

/-- A property of schemas is closed under the steps that build the schemas of types and of
properties. -/
structure BuildClosed (c : Configuration) (P : Node → Prop) : Prop where
  any : P (.any {})
  null : P (.null {})
  nominal : ∀ name, P (.nominal name {})
  scalar : ∀ kind, (c.scalarNode kind).All P
  array : ∀ items unique, P (.array items { uniqueItems := unique })
  map : ∀ values, P (.object true [] [] [] (some values) {})
  nullable : ∀ inner, P inner → P (.nullable inner)
  elements : ∀ items items' k, P (.array items k) → P (.array items' k)
  values : ∀ values values' k, P (.object true [] [] [] (some values) k) →
    P (.object true [] [] [] (some values') k)
  constrained : ∀ type constraints, P (c.typeNode type).value →
    P ((c.typeNode type).value.mapKeywords
      (·.merge (Mapping.ofConstraints (c.shapeOf type) constraints).keywords))
  annotated : ∀ n k, k.annotations = k → P n → P (n.mapKeywords (·.merge k))

variable {c : Configuration}

/-- The value schema of a type is the schema of the type without null. -/
lemma value_typeNode (type : ResolvedType) :
    (c.typeNode type).value = c.typeNode type.nonNull := by
  induction type with
  | scalar kind =>
    unfold ResolvedType.nonNull typeNode scalarNode bytesNode
    split
    · split <;> rfl
    · rfl
  | nullable inner ih =>
    rw [ResolvedType.nonNull, ← ih, typeNode]
    split <;> rfl
  | named | array | map | any => rfl

/-- What has elements or values is a list, a set or a map. -/
lemma itemType?_eq_some {type item : ResolvedType} {step : String}
    (h : itemType? type = some (step, item)) :
    (∃ unique, type = .array item unique) ∨ type = .map item := by
  cases type with
  | array items unique =>
    cases h
    exact Or.inl ⟨unique, rfl⟩
  | map values =>
    cases h
    exact Or.inr rfl
  | scalar | named | nullable | any => cases h

/-- What holds of the schema of a declared type, of every part of the schemas of its properties and
of types, and of what a union offers, holds of every part of it. -/
theorem all_build {P : Node → Prop} {t : TypeDescription} (hself : P (c.build t))
    (htype : ∀ type, (c.typeNode type).All P) (hproperty : ∀ p, (c.propertyNode p).All P)
    (hvariant : ∀ discriminator variants, t.kind = .union discriminator variants →
      ∀ v ∈ variants, (variantNode discriminator v).All P) : (c.build t).All P := by
  unfold build at hself ⊢
  cases hkind : t.kind with
  | object properties additional =>
    rw [hkind] at hself
    refine Node.all_object.mpr ⟨hself, by simp, ?_, ?_⟩
    · intro p hp
      obtain ⟨described, -, rfl⟩ := List.mem_map.mp hp
      exact hproperty described
    · intro n hn
      obtain ⟨type, -, rfl⟩ := Option.map_eq_some_iff.mp hn
      exact htype type
  | enum values =>
    rw [hkind] at hself
    exact Node.all_enum.mpr hself
  | union discriminator variants =>
    rw [hkind] at hself
    refine Node.all_oneOf.mpr ⟨hself, ?_⟩
    intro n hn
    obtain ⟨v, hv, rfl⟩ := List.mem_map.mp hn
    exact hvariant discriminator variants hkind v hv

namespace BuildClosed

variable {P : Node → Prop}

/-- The property holds of every part of the schema of a type. -/
theorem typeNode (h : c.BuildClosed P) (type : ResolvedType) : (c.typeNode type).All P := by
  induction type with
  | scalar kind => exact h.scalar kind
  | named name => exact Node.all_nominal.mpr (h.nominal name)
  | array items unique ih => exact Node.all_array.mpr ⟨h.array _ unique, ih⟩
  | map values ih => simpa [Configuration.typeNode] using ⟨h.map _, ih⟩
  | nullable inner ih =>
    unfold Configuration.typeNode
    split
    · exact Node.all_nullable.mpr ⟨h.nullable _ ih.self, ih⟩
    · exact ih
  | any => exact Node.all_any.mpr h.any

/-- It holds with the keywords of constraints on the type. -/
lemma merge_typeNode (h : c.BuildClosed P) (type : ResolvedType) (constraints : List Constraint) :
    ((c.typeNode type).merge
      (Mapping.ofConstraints (c.shapeOf type) constraints).keywords).All P :=
  (h.typeNode type).merge h.nullable (h.constrained type constraints (h.typeNode type).value.self)

/-- It holds under constraints, which may leave null alone. -/
lemma constrain (h : c.BuildClosed P) (type : ResolvedType) (constraints : List Constraint) :
    (constrain (.ofConstraints (c.shapeOf type) constraints) (c.typeNode type)).All P := by
  unfold Configuration.constrain
  split
  · exact Node.all_null.mpr h.null
  · exact h.merge_typeNode type constraints

/-- It holds under constraints on the value and on the elements or values of a collection. -/
lemma constrainItems (h : c.BuildClosed P) (p : PropertyDescription) :
    (c.constrainItems p ((c.typeNode p.type).merge (c.valueMapping p).keywords)).All P := by
  have hmerged := h.merge_typeNode p.type p.constraints
  unfold Configuration.constrainItems
  split
  · next step item hitem =>
    have hitems : (Configuration.constrain (c.itemMapping p item) (c.typeNode item)).All P :=
      h.constrain item p.itemConstraints
    refine hmerged.mapValue h.nullable ?_
    have hself := hmerged.value.self
    rw [Node.value_merge, value_typeNode] at hself
    rw [Node.value_merge, value_typeNode]
    rcases itemType?_eq_some hitem with ⟨unique, hcollection⟩ | hcollection
    · rw [hcollection] at hself ⊢
      exact Node.all_array.mpr ⟨h.elements _ _ _ hself, hitems⟩
    · rw [hcollection] at hself ⊢
      simpa [Configuration.typeNode, Node.mapKeywords, mapItems] using
        ⟨h.values _ _ _ hself, hitems⟩
  · exact hmerged

/-- The property holds of every part of the schema of a property. -/
theorem propertyNode (h : c.BuildClosed P) (p : PropertyDescription) :
    (c.propertyNode p).All P := by
  have hannotated : ∀ n : Node, n.All P → (n.merge (c.propertyAnnotations p)).All P :=
    fun n hn => hn.merge h.nullable (h.annotated _ _ rfl hn.value.self)
  unfold Configuration.propertyNode
  dsimp only
  split
  · exact hannotated _ (Node.all_null.mpr h.null)
  · exact hannotated _ (h.constrainItems p)

end BuildClosed

end SchemaCompiler.Configuration
