import SchemaCompiler.Proofs.Schema.BuildClosed

/-!
# What built schemas guarantee

Two properties of every schema inside a built one, whatever the described type and the settings are
(`Configuration.build_sound`).  A constant is a boolean or a text, since it comes from a constraint
on booleans or from the tag of a variant.  And where null is accepted beside a schema, nothing but
the type of the schema stands against null (`Node.AdmitsNull`): a schema of any value carries no
constant, because no constraint applies to any value, and an object with a type has no other
schemas to fulfil.  Building the schemas of types and of properties keeps both at once
(`Configuration.buildClosed_receptive`); the tags of a union are sound but admit no null.
-/

namespace SchemaCompiler

/-! ### Properties of one schema -/

/-- A boolean or a text. -/
def Json.IsPlain : Json → Prop
  | bool _ | string _ => True
  | null | number _ | array _ | object _ => False

namespace Node

/-- Nothing but its type, if it has one, keeps a schema from accepting null. -/
def AdmitsNull : Node → Prop
  | any k | null k => k.constant = none
  | object typed allOf _ _ _ _ => typed = true → allOf = []
  | nullable inner => inner.AdmitsNull
  | scalar _ _ | enum _ _ | array _ _ | oneOf _ _ | nominal _ _ | ref _ _ => True

/-- The constant of a schema is plain, and a schema beside which null is accepted admits null. -/
structure Sound (n : Node) : Prop where
  constant : ∀ k, n.keywords? = some k → ∀ value, k.constant = some value → value.IsPlain
  nullable : ∀ inner, n = .nullable inner → inner.AdmitsNull

variable {n inner : Node} {k : Keywords}

/-- A schema with keywords is sound if its constant is plain. -/
lemma Sound.of_keywords (hk : n.keywords? = some k)
    (h : ∀ value, k.constant = some value → value.IsPlain) : n.Sound where
  constant := by
    intro k' hk' value hvalue
    obtain rfl : k = k' := Option.some.inj (hk.symm.trans hk')
    exact h value hvalue
  nullable := by
    rintro inner rfl
    cases hk

/-- A schema without a constant is sound. -/
lemma Sound.of_no_constant (hk : n.keywords? = some k) (h : k.constant = none) : n.Sound :=
  .of_keywords hk fun value hvalue => by simp [h] at hvalue

/-- A nullable schema is sound if the inner one admits null. -/
@[simp] lemma sound_nullable : (nullable inner).Sound ↔ inner.AdmitsNull := by
  constructor
  · intro h
    exact h.nullable inner rfl
  · intro h
    refine ⟨by simp [keywords?], ?_⟩
    rintro other hother
    obtain rfl : inner = other := by simpa using hother
    exact h

/-- Linking keeps what keeps null out. -/
@[simp] lemma admitsNull_link (f : TypeName → CanonicalId) :
    (n.link f).AdmitsNull ↔ n.AdmitsNull := by
  fun_induction AdmitsNull n <;> simp_all [link, AdmitsNull]
  next typed allOf _ _ _ _ => cases allOf <;> simp [linkList]

/-- Linking keeps sound schemas sound. -/
lemma Sound.link (f : TypeName → CanonicalId) (h : n.Sound) : (n.link f).Sound := by
  cases n with
  | nullable inner => simpa [Node.link] using h
  | _ => exact .of_keywords rfl (h.constant _ rfl)

/-! ### Merged keywords -/

/-- Keywords that can be merged into a schema: a constant is plain, and the schema is that of a
scalar. -/
def Allows (n : Node) (k : Keywords) : Prop :=
  ∀ value, k.constant = some value → value.IsPlain ∧ ∃ primitive k', n = scalar primitive k'

/-- Keywords without a constant can be merged into any schema. -/
lemma allows_of_no_constant (h : k.constant = none) : n.Allows k := by
  intro value hvalue
  rw [h] at hvalue
  cases hvalue

/-- A constant of merged keywords comes from either of them. -/
lemma constant_merge {k' : Keywords} {value : Json} (h : (k'.merge k).constant = some value) :
    k.constant = some value ∨ k'.constant = some value := by
  have hor : (k.constant <|> k'.constant) = some value := h
  cases hk : k.constant with
  | none => exact Or.inr (by simpa [hk] using hor)
  | some other => exact Or.inl (by simpa [hk] using hor)

/-- Merged keywords that are allowed keep a schema sound. -/
lemma Sound.merge (h : n.Sound) (hk : n.Allows k) : (n.mapKeywords (·.merge k)).Sound := by
  have hmerged : ∀ k', n.keywords? = some k' →
      ∀ value, (k'.merge k).constant = some value → value.IsPlain := by
    intro k' hk' value hvalue
    rcases constant_merge hvalue with hnew | hold
    · exact (hk value hnew).1
    · exact h.constant k' hk' value hold
  cases n with
  | nullable inner => exact h
  | _ => exact .of_keywords rfl (hmerged _ rfl)

/-- Merged keywords that are allowed let a schema admit null as before. -/
lemma AdmitsNull.merge (h : n.AdmitsNull) (hk : n.Allows k) :
    (n.mapKeywords (·.merge k)).AdmitsNull := by
  -- Only schemas of any value and of null have to be without a constant, and neither is a scalar.
  have hnone : (∀ primitive k', n ≠ scalar primitive k') → k.constant = none := by
    intro hscalar
    cases hconstant : k.constant with
    | none => rfl
    | some value =>
      obtain ⟨-, primitive, k', heq⟩ := hk value hconstant
      exact absurd heq (hscalar primitive k')
  cases n with
  | any k' | null k' =>
    have hk := hnone fun _ _ heq => by cases heq
    simpa [mapKeywords, AdmitsNull, Keywords.merge, hk] using h
  | object | nullable => exact h
  | _ => trivial

/-- A sound schema that admits null. -/
structure Receptive (n : Node) : Prop where
  sound : n.Sound
  admitsNull : n.AdmitsNull

/-- Null can be accepted beside what admits it. -/
lemma Receptive.nullable (h : inner.Receptive) : (nullable inner).Receptive :=
  ⟨sound_nullable.mpr h.admitsNull, h.admitsNull⟩

/-- Merged keywords that are allowed keep a schema receptive. -/
lemma Receptive.merge (h : n.Receptive) (hk : n.Allows k) :
    (n.mapKeywords (·.merge k)).Receptive :=
  ⟨h.sound.merge hk, h.admitsNull.merge hk⟩

end Node

/-! ### Constants of constraints -/

namespace Mapping

variable {m : Mapping} {shape : Shape} {kind : String}

/-- A constant is a boolean that belongs to a boolean value. -/
def ConstantFits (shape : Shape) (m : Mapping) : Prop :=
  ∀ value, m.keywords.constant = some value → shape = .boolean ∧ value.IsPlain

/-- Only booleans are given a constant. -/
lemma shape_of_constant {constraint : Constraint} {contributions : List Contribution}
    {value : Bool} (h : constraint.effect shape = .contributes contributions)
    (hmem : .constant value ∈ contributions) : shape = .boolean := by
  cases constraint <;>
    simp only [Constraint.effect, Constraint.applied, Constraint.counting,
      Constraint.digitsEffect] at h <;>
    (repeat' split at h) <;>
    cases h <;>
    simp_all

/-- Notes of a mapping leave its keywords. -/
@[simp] lemma keywords_note (m : Mapping) (keyword kind : String) :
    (m.note keyword kind).keywords = m.keywords := by
  unfold note
  split <;> rfl

/-- A count is kept or replaced. -/
lemma tightenCount_or (k : Keywords) (keyword : Keywords.Count) (value : Nat) :
    tightenCount k keyword value = k ∨ tightenCount k keyword value = k.setCount value keyword := by
  unfold tightenCount
  split
  · exact Or.inr rfl
  · split
    · exact Or.inr rfl
    · exact Or.inl rfl

/-- A bound is kept or replaced. -/
lemma tightenBound_or (k : Keywords) (keyword : Keywords.Bound) (value : Json.Number) :
    tightenBound k keyword value = k ∨ tightenBound k keyword value = k.setBound value keyword := by
  unfold tightenBound
  split
  · exact Or.inr rfl
  · split
    · exact Or.inr rfl
    · exact Or.inl rfl

/-- A count that is kept or replaced leaves the constant and the step. -/
@[simp] lemma kept_tightenCount (k : Keywords) (keyword : Keywords.Count) (value : Nat) :
    (tightenCount k keyword value).constant = k.constant ∧
      (tightenCount k keyword value).multipleOf = k.multipleOf := by
  rcases tightenCount_or k keyword value with heq | heq
  · rw [heq]
    exact ⟨rfl, rfl⟩
  · rw [heq]
    cases keyword <;> exact ⟨rfl, rfl⟩

/-- A bound that is kept or replaced leaves the constant and the step. -/
@[simp] lemma kept_tightenBound (k : Keywords) (keyword : Keywords.Bound) (value : Json.Number) :
    (tightenBound k keyword value).constant = k.constant ∧
      (tightenBound k keyword value).multipleOf = k.multipleOf := by
  rcases tightenBound_or k keyword value with heq | heq
  · rw [heq]
    exact ⟨rfl, rfl⟩
  · rw [heq]
    cases keyword <;> exact ⟨rfl, rfl⟩

/-- A contribution other than a constant leaves the constant, and a constant is a boolean. -/
lemma constant_contribute {contribution : Contribution} {value : Json}
    (h : (contribute kind m contribution).keywords.constant = some value) :
    m.keywords.constant = some value ∨
      ∃ b, contribution = .constant b ∧ value = .bool b := by
  cases contribution with
  | count keyword count => exact Or.inl (by simpa [contribute] using h)
  | bound keyword bound => exact Or.inl (by simpa [contribute] using h)
  | constant b =>
    simp only [contribute] at h
    split at h
    · exact Or.inl h
    · exact Or.inr ⟨b, rfl, (Option.some.inj h).symm⟩
  | pattern | step =>
    simp only [contribute] at h
    repeat' split at h
    all_goals exact Or.inl h
  | format | nullOnly => exact Or.inl h

/-- What findings and contributions keep is kept by constraints on a value of a shape. -/
theorem ofConstraints_preserves {P : Mapping → Prop} (hstart : P {})
    (hreport : ∀ (m : Mapping) (kind : DiagnosticKind) (message : String), P m →
      P (m.report kind message))
    (hcontribute : ∀ (constraint : Constraint) (contributions : List Contribution),
      constraint.effect shape = .contributes contributions →
      ∀ contribution ∈ contributions, ∀ m : Mapping, P m →
        P (contribute constraint.kind m contribution))
    (constraints : List Constraint) : P (ofConstraints shape constraints) := by
  have happly : ∀ (m : Mapping) (constraint : Constraint), P m → P (m.apply shape constraint) := by
    intro m constraint hm
    unfold apply
    split
    · next contributions heffect =>
      have heach := hcontribute constraint contributions heffect
      clear heffect
      induction contributions generalizing m with
      | nil => exact hm
      | cons contribution contributions ih =>
        obtain ⟨hfirst, hrest⟩ := List.forall_mem_cons.mp heach
        exact ih _ (hfirst m hm) hrest
    · exact hreport m _ _ hm
    · exact hreport m _ _ hm
  unfold ofConstraints
  generalize ({} : Mapping) = m at hstart
  induction constraints generalizing m with
  | nil => exact hstart
  | cons constraint constraints ih => exact ih _ (happly m constraint hstart)

/-- The constraints on a value of a shape give it a constant only if it is a boolean. -/
theorem constantFits_ofConstraints (shape : Shape) (constraints : List Constraint) :
    (ofConstraints shape constraints).ConstantFits shape := by
  have hstart : ConstantFits shape {} := by simp [ConstantFits]
  refine ofConstraints_preserves hstart (fun _ _ _ hm => hm) ?_ constraints
  intro constraint contributions heffect contribution hmem m hm value hvalue
  rcases constant_contribute hvalue with hold | ⟨b, rfl, rfl⟩
  · exact hm value hold
  · exact ⟨shape_of_constant heffect hmem, trivial⟩

end Mapping

/-! ### Built schemas -/

namespace Configuration

open Node (All Sound Allows Receptive)

variable {c : Configuration}

/-- Booleans are described by scalars. -/
lemma isScalar_of_shape {type : ResolvedType} (h : c.shapeOf type = .boolean) :
    ∃ primitive k, (c.typeNode type).value = .scalar primitive k := by
  have hshape : type.nonNull.shape = .boolean := by
    unfold shapeOf at h
    split at h
    · cases h
    · rw [ResolvedType.shape_nonNull, h]
  rw [value_typeNode]
  have hnullable := ResolvedType.isNullable_nonNull type
  cases hvalue : type.nonNull with
  | scalar kind =>
    rw [hvalue] at hshape
    have hbytes : kind ≠ .bytes := by
      rintro rfl
      cases hshape
    exact ⟨kind.primitive, _, by rw [typeNode, scalarNode, if_neg hbytes]⟩
  | nullable inner =>
    rw [hvalue] at hnullable
    cases hnullable
  | named | array | map | any =>
    rw [hvalue] at hshape
    cases hshape

/-- The keywords of constraints on a type can be merged into its schema. -/
lemma typeNode_allows (type : ResolvedType) (constraints : List Constraint) :
    (c.typeNode type).value.Allows
      (Mapping.ofConstraints (c.shapeOf type) constraints).keywords := by
  intro value hvalue
  obtain ⟨hshape, hplain⟩ := Mapping.constantFits_ofConstraints _ constraints value hvalue
  exact ⟨hplain, isScalar_of_shape hshape⟩

/-- The schema of a scalar is receptive. -/
lemma scalarNode_receptive (kind : Scalar) : (c.scalarNode kind).All Receptive := by
  have hscalar : ∀ (primitive : Primitive) (k : Keywords), k.constant = none →
      (Node.scalar primitive k).All Receptive := fun primitive k hk =>
    Node.all_scalar.mpr ⟨.of_no_constant rfl hk, trivial⟩
  unfold scalarNode bytesNode
  split
  · split
    · exact Node.all_array.mpr ⟨⟨.of_no_constant rfl rfl, trivial⟩, hscalar _ _ rfl⟩
    · exact hscalar _ _ rfl
  · exact hscalar _ _ rfl

/-- The schemas of types and of properties are built of receptive ones. -/
theorem buildClosed_receptive : c.BuildClosed Receptive where
  any := ⟨.of_no_constant rfl rfl, rfl⟩
  null := ⟨.of_no_constant rfl rfl, rfl⟩
  nominal _ := ⟨.of_no_constant rfl rfl, trivial⟩
  scalar := scalarNode_receptive
  array _ _ := ⟨.of_no_constant rfl rfl, trivial⟩
  map _ := ⟨.of_no_constant rfl rfl, fun _ => rfl⟩
  nullable _ h := h.nullable
  elements _ _ _ h := ⟨.of_keywords rfl (h.sound.constant _ rfl), trivial⟩
  values _ _ _ h := ⟨.of_keywords rfl (h.sound.constant _ rfl), fun _ => rfl⟩
  constrained type constraints h := h.merge (typeNode_allows type constraints)
  annotated _ _ hk h := h.merge (Node.allows_of_no_constant (congrArg Keywords.constant hk).symm)

/-- What a union offers for a variant is sound. -/
lemma variantNode_sound (discriminator : String) (v : UnionVariant) :
    (variantNode discriminator v).All Sound := by
  have htag : (Node.any { constant := some (.string v.tag) }).Sound := by
    refine .of_keywords rfl fun value hvalue => ?_
    rw [← Option.some.inj hvalue]
    trivial
  simpa [variantNode] using ⟨Sound.of_no_constant rfl rfl, Sound.of_no_constant rfl rfl, htag⟩

/-- Every part of a built schema is sound. -/
theorem build_sound (c : Configuration) (t : TypeDescription) : (c.build t).All Sound := by
  have hself : (c.build t).Sound := by
    unfold build
    dsimp only
    split <;> exact .of_no_constant rfl rfl
  exact all_build hself (fun type => (buildClosed_receptive.typeNode type).imp fun _ h => h.sound)
    (fun p => (buildClosed_receptive.propertyNode p).imp fun _ h => h.sound)
    fun discriminator _ _ v _ => variantNode_sound discriminator v

/-- Every part of a linked schema is sound. -/
theorem link_build_sound (c : Configuration) (t : TypeDescription) (f : TypeName → CanonicalId) :
    ((c.build t).link f).All Sound :=
  (build_sound c t).link f fun _ h => h.link f

end Configuration

end SchemaCompiler
