import SchemaCompiler.Proofs.Numeric.Rounding
import SchemaCompiler.Proofs.Schema.Built
import SchemaCompiler.Proofs.TypeGraph.Exploration

/-!
# Built schemas can be written

A list that must not be empty when it is written has elements in every schema inside a built one,
required names are different names of properties, and a step is above zero (`Node.Proper`).  The
first two are what descriptions of types guarantee, the third comes from the bound on decimal places
(`Configuration.build_proper`).
-/

namespace SchemaCompiler

/-- A step, if there is one, is above zero. -/
def Keywords.StepPositive (k : Keywords) : Prop := ∀ n, k.multipleOf = some n → n.IsPositive

/-- A step of merged keywords comes from either of them. -/
lemma Keywords.StepPositive.merge {k other : Keywords} (h : k.StepPositive)
    (hother : other.StepPositive) : (k.merge other).StepPositive := by
  intro n hn
  have hor : (other.multipleOf <|> k.multipleOf) = some n := hn
  cases hstep : other.multipleOf with
  | none => exact h n (by simpa [hstep] using hor)
  | some step => exact hother n (by simpa [hstep] using hor)

namespace Node

variable {n : Node} {k : Keywords}

/-- What has to be there is there: values, variants and properties of required names. -/
def Filled : Node → Prop
  | enum values _ => values ≠ []
  | oneOf variants _ => variants ≠ []
  | object _ _ properties required _ _ =>
    (properties.map (·.1)).Nodup ∧ required.Nodup ∧ required ⊆ properties.map (·.1)
  | any _ | null _ | scalar _ _ | array _ _ | nullable _ | nominal _ _ | ref _ _ => True

/-- An object has different properties, and different names of them are required. -/
lemma filled_object {typed : Bool} {allOf : List Node} {properties : List (String × Node)}
    {required : List String} {additional : Option Node} :
    (object typed allOf properties required additional k).Filled ↔
      (properties.map (·.1)).Nodup ∧ required.Nodup ∧ required ⊆ properties.map (·.1) := Iff.rfl

/-- A schema that can be written well. -/
structure Proper (n : Node) : Prop where
  filled : n.Filled
  step : ∀ k, n.keywords? = some k → k.StepPositive

/-- A schema with keywords is proper if it is filled and its step is above zero. -/
lemma Proper.of_keywords (hk : n.keywords? = some k) (hfilled : n.Filled)
    (hstep : k.StepPositive) : n.Proper where
  filled := hfilled
  step := by
    intro k' hk'
    obtain rfl : k = k' := Option.some.inj (hk.symm.trans hk')
    exact hstep

/-- Nothing is asked of a nullable schema itself. -/
lemma proper_nullable (inner : Node) : (nullable inner).Proper where
  filled := trivial
  step := by simp [keywords?]

/-- Changed keywords that keep a step above zero keep a schema proper. -/
lemma Proper.mapKeywords {f : Keywords → Keywords} (h : n.Proper)
    (hf : ∀ k, k.StepPositive → (f k).StepPositive) : (n.mapKeywords f).Proper := by
  cases n with
  | nullable inner => exact h
  | _ => exact .of_keywords rfl h.filled (hf _ (h.step _ rfl))

/-- The names of linked properties are the same. -/
lemma names_linkProperties (f : TypeName → CanonicalId) (properties : List (String × Node)) :
    (linkProperties f properties).map (·.1) = properties.map (·.1) := by
  induction properties with
  | nil => rfl
  | cons property properties ih => simp [linkProperties, ih]

/-- What is filled is filled after linking. -/
lemma Filled.link (f : TypeName → CanonicalId) (h : n.Filled) : (n.link f).Filled := by
  cases n with
  | oneOf variants k =>
    cases variants with
    | nil => exact absurd rfl h
    | cons variant variants => exact List.cons_ne_nil _ _
  | object typed allOf properties required additional k =>
    simpa [Filled, Node.link, names_linkProperties] using h
  | enum values k => exact h
  | any | null | scalar | array | nullable | nominal | ref => trivial

/-- Linking keeps a schema proper. -/
lemma Proper.link (f : TypeName → CanonicalId) (h : n.Proper) : (n.link f).Proper := by
  have hfilled := h.filled.link f
  cases n with
  | nullable inner => exact proper_nullable _
  | _ => exact .of_keywords rfl hfilled (h.step _ rfl)

end Node

/-! ### Steps of constraints -/

namespace Mapping

variable {shape : Shape}

/-- A constraint contributes a step above zero. -/
lemma isPositive_of_step {constraint : Constraint} {contributions : List Contribution}
    {n : Json.Number} (h : constraint.effect shape = .contributes contributions)
    (hmem : .step n ∈ contributions) : n.IsPositive := by
  cases constraint with
  | digits integer fraction =>
    simp only [Constraint.effect, Constraint.digitsEffect] at h
    split at h
    · split at h
      · cases h
      · next hdigits =>
        split at h
        · cases h
        · obtain rfl := Effect.contributes.inj h
          -- Of the contributions, only the last one is a step.
          rw [List.mem_append] at hmem
          have hstep := hmem.resolve_left (by simp)
          split at hstep
          · cases hstep
          · next hfraction =>
            rw [Option.mem_toList, Option.map_eq_some_iff] at hstep
            obtain ⟨step, hstep, heq⟩ := hstep
            obtain rfl := Contribution.step.inj heq
            have hmax : fraction ≤ Constraint.maxDigits := by omega
            exact Json.Number.isPositive_of_decimalStep? (Nat.pos_of_ne_zero hfraction) hmax hstep
    · cases h
  | _ =>
    simp only [Constraint.effect, Constraint.applied, Constraint.counting] at h
    repeat' split at h
    all_goals cases h
    all_goals simp_all

/-- A contribution other than a step leaves the step. -/
lemma step_contribute {kind : String} {m : Mapping} {contribution : Contribution}
    {n : Json.Number} (h : (contribute kind m contribution).keywords.multipleOf = some n) :
    m.keywords.multipleOf = some n ∨ contribution = .step n := by
  cases contribution with
  | count keyword count => exact Or.inl (by simpa [contribute] using h)
  | bound keyword bound => exact Or.inl (by simpa [contribute] using h)
  | step value =>
    simp only [contribute] at h
    split at h
    · exact Or.inl h
    · exact Or.inr (congrArg Contribution.step (Option.some.inj h))
  | pattern | constant =>
    simp only [contribute] at h
    repeat' split at h
    all_goals exact Or.inl h
  | format | nullOnly => exact Or.inl h

/-- The step of constraints is above zero. -/
theorem stepPositive_ofConstraints (shape : Shape) (constraints : List Constraint) :
    (ofConstraints shape constraints).keywords.StepPositive := by
  have hstart : ({} : Mapping).keywords.StepPositive := nofun
  refine ofConstraints_preserves (P := fun m => m.keywords.StepPositive) hstart
    (fun _ _ _ hm => hm) ?_ constraints
  intro constraint contributions heffect contribution hmem m hm n hn
  rcases step_contribute hn with hold | rfl
  · exact hm n hold
  · exact isPositive_of_step heffect hmem

end Mapping

/-! ### Built schemas -/

namespace Configuration

open Node (All Proper)

variable {c : Configuration}

/-- Keywords without a step are proper. -/
lemma stepPositive_of_eq_none {k : Keywords} (h : k.multipleOf = none) : k.StepPositive := by
  intro n hn
  rw [h] at hn
  cases hn

/-- The schema of a scalar is proper. -/
lemma scalarNode_proper (kind : Scalar) : (c.scalarNode kind).All Proper := by
  have hscalar : ∀ (primitive : Primitive) (k : Keywords), k.multipleOf = none →
      (Node.scalar primitive k).All Proper := fun primitive k hk =>
    Node.all_scalar.mpr (.of_keywords rfl trivial (stepPositive_of_eq_none hk))
  unfold scalarNode bytesNode
  split
  · split
    · refine Node.all_array.mpr ⟨.of_keywords rfl trivial (stepPositive_of_eq_none rfl), ?_⟩
      exact hscalar _ _ rfl
    · exact hscalar _ _ rfl
  · exact hscalar _ _ rfl

/-- The schemas of types and of properties are built of proper ones. -/
theorem buildClosed_proper : c.BuildClosed Proper where
  any := .of_keywords rfl trivial (stepPositive_of_eq_none rfl)
  null := .of_keywords rfl trivial (stepPositive_of_eq_none rfl)
  nominal _ := .of_keywords rfl trivial (stepPositive_of_eq_none rfl)
  scalar := scalarNode_proper
  array _ _ := .of_keywords rfl trivial (stepPositive_of_eq_none rfl)
  map _ := .of_keywords rfl ⟨List.nodup_nil, List.nodup_nil, List.nil_subset _⟩
    (stepPositive_of_eq_none rfl)
  nullable _ _ := Node.proper_nullable _
  elements _ _ _ h := .of_keywords rfl trivial (h.step _ rfl)
  values _ _ _ h := .of_keywords rfl h.filled (h.step _ rfl)
  constrained _ constraints h :=
    h.mapKeywords fun _ hstep => hstep.merge (Mapping.stepPositive_ofConstraints _ constraints)
  annotated _ _ hk h := h.mapKeywords fun _ hstep =>
    hstep.merge (stepPositive_of_eq_none (congrArg Keywords.multipleOf hk).symm)

/-- What a union offers for a variant is proper. -/
lemma variantNode_proper (discriminator : String) (v : UnionVariant) :
    (variantNode discriminator v).All Proper := by
  have htarget : (Node.nominal v.target {}).Proper :=
    .of_keywords rfl trivial (stepPositive_of_eq_none rfl)
  have htag : (Node.any { constant := some (.string v.tag) }).Proper :=
    .of_keywords rfl trivial (stepPositive_of_eq_none rfl)
  refine Node.all_object.mpr ⟨.of_keywords rfl ?_ (stepPositive_of_eq_none rfl), ?_, ?_, by simp⟩
  · exact ⟨List.nodup_singleton _, List.nodup_singleton _, List.Subset.refl _⟩
  · simpa using htarget
  · simpa using htag

/-- The schema of a well-formed type is proper. -/
lemma build_self_proper {t : TypeDescription} {allowAny : Bool} (h : t.kind.WellFormed allowAny) :
    (c.build t).Proper := by
  have hannotations : (c.typeAnnotations t).StepPositive := stepPositive_of_eq_none rfl
  unfold build
  cases hkind : t.kind with
  | object properties additional =>
    rw [hkind] at h
    have hrequired : ((properties.filter c.requires).map (·.name)).Sublist
        (properties.map (·.name)) := List.filter_sublist.map _
    have hnames : (properties.map fun p => (p.name, c.propertyNode p)).map (·.1) =
        properties.map (·.name) := by simp
    refine .of_keywords rfl ?_ hannotations
    rw [Node.filled_object, hnames]
    exact ⟨h.1, h.1.sublist hrequired, hrequired.subset⟩
  | enum values =>
    rw [hkind] at h
    exact .of_keywords rfl h hannotations
  | union discriminator variants =>
    rw [hkind] at h
    exact .of_keywords rfl (fun hempty => h (List.map_eq_nil_iff.mp hempty)) hannotations

/-- Every part of the schema of a well-formed type is proper. -/
theorem build_proper (c : Configuration) {t : TypeDescription} {allowAny : Bool}
    (h : t.kind.WellFormed allowAny) : (c.build t).All Proper :=
  all_build (build_self_proper h) buildClosed_proper.typeNode buildClosed_proper.propertyNode
    fun discriminator _ _ v _ => variantNode_proper discriminator v

/-- Every part of the linked schema of a well-formed type is proper. -/
theorem link_build_proper (c : Configuration) {t : TypeDescription} {allowAny : Bool}
    (h : t.kind.WellFormed allowAny) (f : TypeName → CanonicalId) :
    ((c.build t).link f).All Proper :=
  (build_proper c h).link f fun _ hm => hm.link f

end Configuration

end SchemaCompiler
