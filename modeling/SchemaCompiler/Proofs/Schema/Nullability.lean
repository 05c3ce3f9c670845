import SchemaCompiler.Proofs.Constraint.Contributions
import SchemaCompiler.Proofs.Outcome
import SchemaCompiler.Proofs.Schema.Built
import SchemaCompiler.Proofs.Schema.Structure
import SchemaCompiler.TypeGraph.Extraction

/-!
# Null beside the schemas of properties

Where null is accepted beside the schema of a type is decided by the type and by the setting for
null, and constraints take it away in two ways: `null` leaves nothing but null, and `not_null` on a
property leaves a type without null.  On the elements or values of a collection `not_null` does
nothing: null is accepted beside their schema exactly if it is accepted beside that of their type
and `null` is not among their constraints (`Configuration.isNullable_describeProperty`).
-/

namespace SchemaCompiler

/-! ### Constraints that leave null alone -/

/-- Nothing but `null` leaves null alone. -/
lemma Constraint.nullOnly_mem_contributions {shape : Shape} {c : Constraint} :
    .nullOnly ∈ (c.effect shape).contributions ↔ c = .null := by
  cases c with
  | notBlank => by_cases hshape : shape = .string <;> simp [effect, hshape]
  | notEmpty => simp [effect]
  | size least greatest => simp
  | digits integer fraction =>
    by_cases hnumeric : shape.isNumeric = true <;> simp [effect, hnumeric]
  | _ => simp [effect]

namespace Mapping

variable {m : Mapping} {shape : Shape} {kind : String}

/-- Notes of a mapping leave whether null is the only value. -/
@[simp] lemma nullOnly_note (m : Mapping) (keyword kind : String) :
    (m.note keyword kind).nullOnly = m.nullOnly := by
  unfold note
  split <;> rfl

/-- Only one contribution is about null. -/
lemma nullOnly_contribute {x : Contribution} :
    (contribute kind m x).nullOnly = true ↔ m.nullOnly = true ∨ x = .nullOnly := by
  cases x with
  | nullOnly => simp [contribute]
  | count | bound => simp [contribute]
  | pattern | constant | step =>
    simp only [contribute]
    repeat' split
    all_goals simp [keepFirst, report]
  | format => simp [contribute]

/-- Null is the only value after a constraint if it was before, or if the constraint says so. -/
lemma nullOnly_apply {c : Constraint} :
    (apply shape m c).nullOnly = true ↔ m.nullOnly = true ∨ c = .null := by
  have hfold : ∀ contributions : List Contribution,
      (contributions.foldl (contribute c.kind) m).nullOnly = true ↔
        m.nullOnly = true ∨ .nullOnly ∈ contributions := by
    intro contributions
    induction contributions generalizing m with
    | nil => simp
    | cons x contributions ih =>
      rw [List.foldl_cons, ih, nullOnly_contribute, List.mem_cons, or_assoc, eq_comm (a := x)]
  have hnull : .nullOnly ∈ (c.effect shape).contributions ↔ c = .null :=
    Constraint.nullOnly_mem_contributions
  rw [← hnull]
  unfold apply
  cases c.effect shape with
  | contributes contributions => exact hfold contributions
  | inapplicable | unmapped => simp [report]

/-- Null is the only value exactly if one of the constraints is `null`. -/
theorem nullOnly_ofConstraints (shape : Shape) (constraints : List Constraint) :
    (ofConstraints shape constraints).nullOnly = true ↔ .null ∈ constraints := by
  have hfold : ∀ m : Mapping, (constraints.foldl (apply shape) m).nullOnly = true ↔
      m.nullOnly = true ∨ .null ∈ constraints := by
    induction constraints with
    | nil => simp
    | cons c constraints ih =>
      intro m
      rw [List.foldl_cons, ih, nullOnly_apply, List.mem_cons, or_assoc, eq_comm (a := c)]
  rw [ofConstraints, hfold, or_iff_right Bool.false_ne_true]

end Mapping

/-! ### Null beside a schema -/

namespace Node

variable {n : Node} {k : Keywords}

/-- The schema of the elements of an array, or of the values of a map, whether or not null is
accepted beside the collection. -/
def element? (n : Node) : Option Node :=
  match n.value with
  | array items _ => some items
  | object _ _ _ _ additional _ => additional
  | _ => none

/-- A change of the value schema that accepts no null leaves whether null is accepted. -/
lemma isNullable_mapValue {f : Node → Node} (hf : (f n.value).isNullable = false) :
    (n.mapValue f).isNullable = n.isNullable := by
  cases n with
  | nullable inner => rfl
  | _ => exact hf

/-- Other keywords leave whether null is accepted. -/
lemma isNullable_mapKeywords (f : Keywords → Keywords) :
    (n.mapKeywords f).isNullable = n.isNullable := by
  cases n <;> rfl

/-- Merged keywords leave whether null is accepted. -/
@[simp] lemma isNullable_merge : (n.merge k).isNullable = n.isNullable :=
  isNullable_mapValue (by rw [isNullable_mapKeywords, isNullable_value])

/-- Merged keywords leave the schema of elements or values. -/
@[simp] lemma element?_merge : ∀ n : Node, (n.merge k).element? = n.element?
  | nullable inner => element?_merge inner
  | any _ | null _ | scalar _ _ | enum _ _ | array _ _ | object _ _ _ _ _ _ | oneOf _ _
  | nominal _ _ | ref _ _ => rfl

end Node

/-! ### Null beside the schemas of properties -/

/-- A described property keeps its constraints, and under `not_null` it is not nullable. -/
lemma TypeSource.describeProperty_eq_ok {source : TypeSource} {owner : TypeName}
    {declared : PropertyDeclaration} {p : PropertyDescription}
    (h : source.describeProperty owner declared = .ok p) :
    p.constraints = declared.constraints ∧ p.itemConstraints = declared.itemConstraints ∧
      (.notNull ∈ declared.constraints → p.nullable = false) := by
  simp only [describeProperty, bind_eq_ok_iff, pure_eq_ok_iff] at h
  obtain ⟨type, -, rfl⟩ := h
  refine ⟨rfl, rfl, fun hnotNull => ?_⟩
  have hcontains : declared.constraints.contains .notNull = true :=
    List.contains_iff_mem.mpr hnotNull
  rw [PropertyDescription.nullable, if_pos hcontains, ResolvedType.isNullable_nonNull]

namespace Configuration

open Node (element?)

variable {c : Configuration} {n : Node} {type item : ResolvedType} {p : PropertyDescription}
  {step : String}

/-- Another schema of elements or values leaves whether null is accepted beside the collection. -/
lemma isNullable_mapItems (f : Node → Node) : (mapItems f n).isNullable = n.isNullable := by
  unfold mapItems
  split <;> rfl

/-- Where elements or values are changed, the changed schema is theirs. -/
lemma element?_mapValue_mapItems (f : Node → Node) : ∀ n : Node,
    (n.mapValue (mapItems f)).element? = n.element?.map f
  | .nullable inner => element?_mapValue_mapItems f inner
  | .object _ _ _ _ none _ | .object _ _ _ _ (some _) _ => rfl
  | .any _ | .null _ | .scalar _ _ | .enum _ _ | .array _ _ | .oneOf _ _ | .nominal _ _
  | .ref _ _ => rfl

/-- Null is accepted beside the schema of a nullable type, unless null is left out. -/
theorem isNullable_typeNode (type : ResolvedType) :
    (c.typeNode type).isNullable = true ↔
      type.isNullable = true ∧ c.nullInclusion = .accepted := by
  induction type with
  | scalar kind =>
    refine iff_of_false ?_ (by simp [ResolvedType.isNullable])
    unfold typeNode scalarNode bytesNode
    repeat' split
    all_goals simp [Node.isNullable]
  | nullable inner ih =>
    cases hpolicy : c.nullInclusion with
    | accepted => simp [typeNode, hpolicy, Node.isNullable, ResolvedType.isNullable]
    | leftOut =>
      simp only [typeNode, hpolicy]
      rw [ih, hpolicy]
      simp
  | named | array | map | any =>
    exact iff_of_false Bool.false_ne_true fun h => Bool.false_ne_true h.1

/-- The elements or values of a collection have the schema of their type. -/
lemma element?_typeNode (h : itemType? type.nonNull = some (step, item)) :
    (c.typeNode type).element? = some (c.typeNode item) := by
  unfold element?
  rw [value_typeNode]
  rcases itemType?_eq_some h with ⟨unique, heq⟩ | heq
  · rw [heq]
    rfl
  · rw [heq]
    rfl

/-- Constraints take null away if `null` is among them, and leave it otherwise. -/
theorem isNullable_constrain (shape : Shape) (constraints : List Constraint) :
    (constrain (.ofConstraints shape constraints) n).isNullable = true ↔
      n.isNullable = true ∧ .null ∉ constraints := by
  unfold constrain
  split
  · next honly =>
    exact iff_of_false Bool.false_ne_true
      fun h => h.2 ((Mapping.nullOnly_ofConstraints _ _).mp honly)
  · next hmore =>
    rw [Node.isNullable_merge, and_iff_left]
    rwa [← Mapping.nullOnly_ofConstraints shape]

/-- Null is accepted beside the schema of a property if it is accepted beside that of its type and
the constraints do not leave it alone. -/
theorem isNullable_propertyNode (p : PropertyDescription) :
    (c.propertyNode p).isNullable = true ↔
      p.nullable = true ∧ c.nullInclusion = .accepted ∧ .null ∉ p.constraints := by
  have honly := Mapping.nullOnly_ofConstraints (c.shapeOf p.type) p.constraints
  have hitems : ∀ n : Node, (c.constrainItems p n).isNullable = n.isNullable := by
    intro n
    unfold constrainItems
    split
    · exact Node.isNullable_mapValue (by rw [isNullable_mapItems, Node.isNullable_value])
    · rfl
  unfold propertyNode
  dsimp only
  rw [Node.isNullable_merge]
  split
  · next hnull =>
    refine iff_of_false Bool.false_ne_true fun h => h.2.2 (honly.mp hnull)
  · next hmore =>
    have hnull : .null ∉ p.constraints := by rwa [← honly]
    rw [hitems, Node.isNullable_merge, isNullable_typeNode, and_iff_left hnull]
    rfl

/-- The elements or values of a property have the schema of their type under their constraints,
unless the property is null alone. -/
theorem element?_propertyNode (h : itemType? p.type.nonNull = some (step, item))
    (hnull : .null ∉ p.constraints) :
    (c.propertyNode p).element? = some (constrain (c.itemMapping p item) (c.typeNode item)) := by
  have hmore : ¬(c.valueMapping p).nullOnly = true := by
    rwa [valueMapping, Mapping.nullOnly_ofConstraints]
  unfold propertyNode constrainItems
  dsimp only
  rw [if_neg hmore, Node.element?_merge, h]
  dsimp only
  rw [element?_mapValue_mapItems, Node.element?_merge, element?_typeNode h, Option.map_some]

/-- Under `not_null` a described property is not nullable, and null is not accepted beside its
schema.  Beside the schema of the elements or values of a collection, `not_null` or not, null is
accepted exactly if their type is nullable, null is not left out, and `null` is not among their
constraints. -/
theorem isNullable_describeProperty (c : Configuration) {source : TypeSource} {owner : TypeName}
    {declared : PropertyDeclaration} {p : PropertyDescription}
    (h : source.describeProperty owner declared = .ok p) :
    (.notNull ∈ declared.constraints →
      p.nullable = false ∧ (c.propertyNode p).isNullable = false) ∧
    ∀ step item, itemType? p.type.nonNull = some (step, item) →
      .null ∉ declared.constraints →
      ∃ element, (c.propertyNode p).element? = some element ∧
        (element.isNullable = true ↔
          item.isNullable = true ∧ c.nullInclusion = .accepted ∧
            .null ∉ declared.itemConstraints) := by
  obtain ⟨hconstraints, hitemConstraints, hnullable⟩ := TypeSource.describeProperty_eq_ok h
  refine ⟨fun hnotNull => ⟨hnullable hnotNull, ?_⟩, fun step item hitem hnull => ?_⟩
  · refine Bool.eq_false_of_not_eq_true fun hnode => ?_
    rw [isNullable_propertyNode, hnullable hnotNull] at hnode
    exact Bool.false_ne_true hnode.1
  · rw [← hconstraints] at hnull
    refine ⟨_, element?_propertyNode hitem hnull, ?_⟩
    rw [itemMapping, isNullable_constrain, isNullable_typeNode, and_assoc, hitemConstraints]

/-- A list of names in which neither the list nor a name should be null. -/
def roster : PropertyDeclaration where
  name := "names"
  type := .nullable (.list (.nullable (.scalar .string)))
  constraints := [.notNull]
  itemConstraints := [.notBlank, .notNull]

/-- Null is not accepted beside the list, but beside each of the names. -/
theorem isNullable_roster :
    ∃ p, ({ unit := {}, allowAny := false } : TypeSource).describeProperty
        (.topLevel "" "Club") roster = .ok p ∧
      .notNull ∈ roster.constraints ∧ .notNull ∈ roster.itemConstraints ∧
      p.nullable = false ∧ (({} : Configuration).propertyNode p).isNullable = false ∧
      ∃ element, (({} : Configuration).propertyNode p).element? = some element ∧
        element.isNullable = true := by
  obtain ⟨p, hp, hitem⟩ : ∃ p, ({ unit := {}, allowAny := false } : TypeSource).describeProperty
      (.topLevel "" "Club") roster = .ok p ∧
        itemType? p.type.nonNull = some ("items", .nullable (.scalar .string)) := ⟨_, rfl, rfl⟩
  obtain ⟨hlist, hnames⟩ := isNullable_describeProperty ({} : Configuration) hp
  refine ⟨p, hp, by decide, by decide, ?_⟩
  obtain ⟨hnullable, hnode⟩ := hlist (by decide)
  obtain ⟨element, helement, hnull⟩ := hnames _ _ hitem (by decide)
  exact ⟨hnullable, hnode, element, helement, hnull.mpr ⟨rfl, rfl, by decide⟩⟩

end Configuration

end SchemaCompiler
