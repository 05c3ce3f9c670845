import SchemaCompiler.Proofs.Schema.Nullability

/-!
# Keywords and the values they restrict

Every keyword that restricts values is about one kind of them: texts, numbers, arrays, objects or
booleans.  `Keywords.Suits` says that keywords are about the values of a shape, and `Node.subject?`
which shape a schema is about, if it is about any.  Constraints on a shape set keywords that suit it
(`Mapping.suits_ofConstraints`), and the shape for which the constraints of a property or of its
elements are read is the one that their schema is about (`Configuration.suits_subject?`).  So
keywords suit their schema everywhere in a built one, with the tags of unions as the only constants
beside those of booleans (`Configuration.build_suited`).
-/

namespace SchemaCompiler

/-! ### Keywords for a shape -/

/-- Numbers are integers or not. -/
lemma Shape.integer_or_number {shape : Shape} (h : shape.isNumeric = true) :
    some shape = some .integer ∨ some shape = some .number := by
  cases shape <;> simp_all [isNumeric]

namespace Keywords

variable {k k' : Keywords} {subject? : Option Shape}

/-- Keywords restrict values of one shape at most: where the shape is another one, or where there is
none, they are not set. -/
structure Suits (k : Keywords) (subject? : Option Shape) : Prop where
  text : subject? ≠ some .string →
    k.format = .none ∧ k.contentEncoding = .none ∧ k.pattern = .none ∧ k.minLength = .none ∧
      k.maxLength = .none
  number : subject? ≠ some .integer → subject? ≠ some .number →
    k.minimum = .none ∧ k.exclusiveMinimum = .none ∧ k.maximum = .none ∧
      k.exclusiveMaximum = .none ∧ k.multipleOf = .none
  items : subject? ≠ some .array →
    k.minItems = .none ∧ k.maxItems = .none ∧ k.uniqueItems = false
  members : subject? ≠ some .map → k.minProperties = .none ∧ k.maxProperties = .none
  constant : subject? ≠ some .boolean → k.constant = .none

/-- Annotations suit every shape. -/
lemma suits_of_annotations (h : k.annotations = k) : k.Suits subject? := by
  rw [← h]
  exact ⟨fun _ => ⟨rfl, rfl, rfl, rfl, rfl⟩, fun _ _ => ⟨rfl, rfl, rfl, rfl, rfl⟩,
    fun _ => ⟨rfl, rfl, rfl⟩, fun _ => ⟨rfl, rfl⟩, fun _ => rfl⟩

/-- Keywords that suit no shape are annotations. -/
lemma Suits.annotations_eq (h : k.Suits .none) : k.annotations = k := by
  obtain ⟨hformat, hencoding, hpattern, hminLength, hmaxLength⟩ := h.text nofun
  obtain ⟨hminimum, hexclusiveMinimum, hmaximum, hexclusiveMaximum, hmultipleOf⟩ :=
    h.number nofun nofun
  obtain ⟨hminItems, hmaxItems, huniqueItems⟩ := h.items nofun
  obtain ⟨hminProperties, hmaxProperties⟩ := h.members nofun
  have hconstant := h.constant nofun
  cases k
  simp_all [annotations]

/-- Nothing restricts values of declared types and values of any type, so what suits these suits
every shape. -/
lemma Suits.of_unrestricted {shape : Shape} (hshape : shape = .nominal ∨ shape = .any)
    (h : k.Suits (some shape)) : k.Suits subject? := by
  have hne : ∀ other, other ≠ .nominal → other ≠ .any → some shape ≠ some other := by
    rintro other hnominal hany hsame
    obtain rfl := Option.some.inj hsame
    exact hshape.elim hnominal hany
  exact ⟨fun _ => h.text (hne _ nofun nofun),
    fun _ _ => h.number (hne _ nofun nofun) (hne _ nofun nofun),
    fun _ => h.items (hne _ nofun nofun), fun _ => h.members (hne _ nofun nofun),
    fun _ => h.constant (hne _ nofun nofun)⟩

/-- Merged keywords suit what both of them suit. -/
lemma Suits.merge (h : k.Suits subject?) (h' : k'.Suits subject?) :
    (k.merge k').Suits subject? where
  text hne := by simp [Keywords.merge, h.text hne, h'.text hne]
  number hinteger hnumber := by
    simp [Keywords.merge, h.number hinteger hnumber, h'.number hinteger hnumber]
  items hne := by simp [Keywords.merge, h.items hne, h'.items hne]
  members hne := by simp [Keywords.merge, h.members hne, h'.members hne]
  constant hne := by simp [Keywords.merge, h.constant hne, h'.constant hne]

/-- The shape whose size a count bounds. -/
def Count.subject : Count → Shape
  | minLength | maxLength => .string
  | minItems | maxItems => .array
  | minProperties | maxProperties => .map

/-- A count suits the shape whose size it bounds. -/
lemma Suits.setCount {shape : Shape} {keyword : Count} (h : k.Suits (some shape))
    (hkeyword : keyword.subject = shape) (value : Nat) :
    (k.setCount value keyword).Suits (some shape) := by
  subst hkeyword
  cases keyword with
  | minLength | maxLength =>
    exact ⟨fun hne => absurd rfl hne, h.number, h.items, h.members, h.constant⟩
  | minItems | maxItems =>
    exact ⟨h.text, h.number, fun hne => absurd rfl hne, h.members, h.constant⟩
  | minProperties | maxProperties =>
    exact ⟨h.text, h.number, h.items, fun hne => absurd rfl hne, h.constant⟩

/-- Every bound suits numeric shapes. -/
lemma Suits.setBound {shape : Shape} (h : k.Suits (some shape)) (hnumeric : shape.isNumeric = true)
    (value : Json.Number) (keyword : Bound) : (k.setBound value keyword).Suits (some shape) := by
  have hne := Shape.integer_or_number hnumeric
  cases keyword <;>
    exact ⟨h.text, fun hinteger hnumber => (hne.elim hinteger hnumber).elim, h.items, h.members,
      h.constant⟩

end Keywords

/-! ### Keywords of constraints -/

/-- A contribution to a keyword suits the shapes that the keyword is about. -/
def Contribution.Suits (shape : Shape) : Contribution → Prop
  | count keyword _ => keyword.subject = shape
  | bound _ _ | step _ => shape.isNumeric = true
  | pattern _ | format _ => shape = .string
  | constant _ => shape = .boolean
  | nullOnly => True

namespace Constraint

variable {shape : Shape} {c : Constraint} {x : Contribution}

/-- A sized shape is the subject of both keywords for its size. -/
lemma Sized.subject_eq {lower upper : Keywords.Count} (h : Sized shape lower upper) :
    lower.subject = shape ∧ upper.subject = shape := by
  cases h <;> exact ⟨rfl, rfl⟩

/-- A shape is the subject of the keyword for its least size. -/
lemma subject_eq_of_minCount? {lower : Keywords.Count} (h : minCount? shape = some lower) :
    lower.subject = shape := by
  obtain ⟨upper, hsized⟩ := exists_sized h
  exact hsized.subject_eq.1

/-- What a constraint contributes on a shape suits the shape. -/
theorem suits_of_mem_contributions (h : x ∈ (c.effect shape).contributions) : x.Suits shape := by
  -- A count is contributed to the keyword of the shape, and the rest under a condition on it.
  cases c with
  | null =>
    obtain rfl := List.mem_singleton.mp h
    trivial
  | notNull | unknown name => cases h
  | notBlank =>
    by_cases hstring : shape = .string
    · rw [effect, if_pos hstring] at h
      obtain ⟨lower, hlower, rfl⟩ := mem_counting.mp h
      exact subject_eq_of_minCount? hlower
    · simp [effect, hstring] at h
  | notEmpty =>
    obtain ⟨lower, hlower, rfl⟩ := mem_counting.mp h
    exact subject_eq_of_minCount? hlower
  | size least greatest =>
    obtain ⟨lower, upper, hsized, ⟨n, -, rfl⟩ | ⟨n, -, rfl⟩⟩ := mem_size.mp h
    · exact hsized.subject_eq.1
    · exact hsized.subject_eq.2
  | digits integer fraction =>
    by_cases hnumeric : shape.isNumeric = true
    · rw [effect, if_pos hnumeric] at h
      obtain ⟨-, -, limit, -, rfl | rfl | ⟨-, step, -, rfl⟩⟩ := mem_digitsEffect.mp h <;>
        exact hnumeric
    · simp [effect, hnumeric] at h
  | email regexp =>
    obtain ⟨happlies, hx⟩ := mem_applied.mp h
    have hstring : shape = .string := of_decide_eq_true happlies
    rcases List.mem_cons.mp hx with rfl | hpattern
    · exact hstring
    · obtain ⟨_, -, rfl⟩ := Option.map_eq_some_iff.mp (Option.mem_toList.mp hpattern)
      exact hstring
  | pattern regexp =>
    obtain ⟨hstring, hx⟩ := mem_applied.mp h
    obtain rfl := List.mem_singleton.mp hx
    have hstring : shape = .string := of_decide_eq_true hstring
    exact hstring
  | assertTrue | assertFalse =>
    obtain ⟨hboolean, hx⟩ := mem_applied.mp h
    obtain rfl := List.mem_singleton.mp hx
    have hboolean : shape = .boolean := of_decide_eq_true hboolean
    exact hboolean
  | min | max | decimalMin | decimalMax | positive | positiveOrZero | negative
  | negativeOrZero =>
    obtain ⟨hnumeric, hx⟩ := mem_applied.mp h
    obtain rfl := List.mem_singleton.mp hx
    exact hnumeric

end Constraint

namespace Mapping

open Keywords (Suits)

variable {m : Mapping} {shape : Shape} {kind : String} {x : Contribution}

/-- A contribution that suits a shape keeps the keywords suited to it. -/
lemma suits_contribute (h : m.keywords.Suits (some shape)) (hx : x.Suits shape) :
    (contribute kind m x).keywords.Suits (some shape) := by
  cases x with
  | count keyword value =>
    simp only [contribute, keywords_note]
    rcases tightenCount_or m.keywords keyword value with heq | heq
    · rwa [heq]
    · rw [heq]
      exact h.setCount hx value
  | bound keyword value =>
    simp only [contribute, keywords_note]
    rcases tightenBound_or m.keywords keyword value with heq | heq
    · rwa [heq]
    · rw [heq]
      exact h.setBound hx value keyword
  | format name =>
    exact ⟨fun hne => absurd (congrArg some hx) hne, h.number, h.items, h.members, h.constant⟩
  | pattern regexp =>
    simp only [contribute]
    split
    · exact ⟨fun hne => absurd (congrArg some hx) hne, h.number, h.items, h.members, h.constant⟩
    · split
      · exact h
      · exact h
  | constant value =>
    simp only [contribute]
    split
    · exact h
    · exact ⟨h.text, h.number, h.items, h.members, fun hne => absurd (congrArg some hx) hne⟩
  | step value =>
    simp only [contribute]
    split
    · exact h
    · exact ⟨h.text, fun hinteger hnumber =>
        ((Shape.integer_or_number hx).elim hinteger hnumber).elim, h.items, h.members, h.constant⟩
  | nullOnly => exact h

/-- Constraints on a shape set keywords that suit it. -/
theorem suits_ofConstraints (shape : Shape) (constraints : List Constraint) :
    (ofConstraints shape constraints).keywords.Suits (some shape) := by
  have hstart : ({} : Mapping).keywords.Suits (some shape) := Keywords.suits_of_annotations rfl
  refine ofConstraints_preserves (P := fun m => m.keywords.Suits (some shape)) hstart
    (fun _ _ _ hm => hm) ?_ constraints
  intro constraint contributions heffect x hx m hm
  refine suits_contribute hm (Constraint.suits_of_mem_contributions (c := constraint) ?_)
  rwa [heffect]

end Mapping

/-! ### Keywords in schemas -/

namespace Node

variable {n : Node} {k : Keywords}

/-- The shape of the values that a schema is about, if it asserts their type and leaves open which
of them they are. -/
def subject? : Node → Option Shape
  | scalar primitive _ => some (.ofPrimitive primitive)
  | array _ _ => some .array
  | object true _ _ _ _ _ => some .map
  | any _ | null _ | enum _ _ | object false _ _ _ _ _ | nullable _ | oneOf _ _ | nominal _ _
  | ref _ _ => none

/-- The keywords of a schema suit what the schema is about. -/
def Suited (n : Node) : Prop := ∀ k, n.keywords? = some k → k.Suits n.subject?

/-- A schema is suited if its keywords suit what it is about. -/
lemma Suited.of_keywords (hk : n.keywords? = some k) (h : k.Suits n.subject?) : n.Suited := by
  intro k' hk'
  obtain rfl : k = k' := Option.some.inj (hk.symm.trans hk')
  exact h

/-- A schema with annotations alone is suited. -/
lemma Suited.of_annotations (hk : n.keywords? = some k) (h : k.annotations = k) : n.Suited :=
  .of_keywords hk (Keywords.suits_of_annotations h)

/-- A nullable schema has no keywords of its own. -/
lemma suited_nullable (inner : Node) : (nullable inner).Suited := by
  intro k hk
  cases hk

/-- A suited schema that is about no shape has annotations alone. -/
lemma Suited.annotations_eq (h : n.Suited) (hsubject : n.subject? = none)
    (hk : n.keywords? = some k) : k.annotations = k := by
  have hsuits := h k hk
  rw [hsubject] at hsuits
  exact hsuits.annotations_eq

/-- A schema is that of a tag: a text alone, under the discriminator of what a union offers. -/
def IsTagOf (n union : Node) : Prop :=
  ∃ variants k target discriminator tag, union = .oneOf variants k ∧
    n = .any { constant := some (.string tag) } ∧
    .object false [target] [(discriminator, n)] [discriminator] .none {} ∈ variants

/-- Merged keywords that suit what a schema is about keep it suited. -/
lemma Suited.merge (h : n.Suited) (hk : k.Suits n.subject?) :
    (n.mapKeywords (·.merge k)).Suited := by
  have hmerged : ∀ k', n.keywords? = some k' → (k'.merge k).Suits n.subject? :=
    fun k' hk' => (h k' hk').merge hk
  cases n with
  | nullable inner => exact h
  | object typed => cases typed <;> exact .of_keywords rfl (hmerged _ rfl)
  | _ => exact .of_keywords rfl (hmerged _ rfl)

end Node

/-- A text alone has a format. -/
lemma Scalar.format?_eq_none {kind : Scalar} (h : kind.primitive ≠ .string) :
    kind.format? = none := by
  cases kind <;> first | rfl | exact absurd rfl h

namespace Configuration

open Keywords (Suits)
open Node (All Suited)

variable {c : Configuration} {n : Node} {k : Keywords}

/-- The schema of a scalar is suited. -/
lemma scalarNode_suited (kind : Scalar) : (c.scalarNode kind).All Suited := by
  have hbytes : c.bytesNode.All Suited := by
    unfold bytesNode
    split
    · refine Node.all_array.mpr ⟨.of_annotations rfl rfl, Node.all_scalar.mpr ?_⟩
      exact .of_keywords rfl ⟨fun _ => ⟨rfl, rfl, rfl, rfl, rfl⟩, fun h _ => absurd rfl h,
        fun _ => ⟨rfl, rfl, rfl⟩, fun _ => ⟨rfl, rfl⟩, fun _ => rfl⟩
    · refine Node.all_scalar.mpr (.of_keywords rfl ?_)
      exact ⟨fun h => absurd rfl h, fun _ _ => ⟨rfl, rfl, rfl, rfl, rfl⟩,
        fun _ => ⟨rfl, rfl, rfl⟩, fun _ => ⟨rfl, rfl⟩, fun _ => rfl⟩
  unfold scalarNode
  split
  · exact hbytes
  · refine Node.all_scalar.mpr (.of_keywords rfl ?_)
    refine ⟨fun htext => ⟨Scalar.format?_eq_none fun hstring => htext ?_, rfl, rfl, rfl, rfl⟩,
      fun _ _ => ⟨rfl, rfl, rfl, rfl, rfl⟩, fun _ => ⟨rfl, rfl, rfl⟩, fun _ => ⟨rfl, rfl⟩,
      fun _ => rfl⟩
    rw [Node.subject?, hstring]
    rfl

/-- Keywords for the shape of a type suit what the schema of the type is about. -/
theorem suits_subject? {type : ResolvedType} (h : k.Suits (some (c.shapeOf type))) :
    k.Suits (c.typeNode type).value.subject? := by
  have hshape : c.shapeOf type =
      if c.binaryAsArray = true ∧ type.nonNull = .scalar .bytes then .array
      else type.nonNull.shape := by rw [shapeOf, ResolvedType.shape_nonNull]
  rw [value_typeNode]
  rw [hshape] at h
  split at h
  · next harray =>
    rwa [harray.2, typeNode, scalarNode, if_pos rfl, bytesNode, if_pos harray.1]
  · next hother =>
    have hnullable := ResolvedType.isNullable_nonNull type
    cases hvalue : type.nonNull with
    | scalar kind =>
      rw [hvalue] at h hother
      by_cases hbytes : kind = .bytes
      · subst hbytes
        have htext : ¬c.binaryAsArray = true := fun harray => hother ⟨harray, rfl⟩
        rwa [typeNode, scalarNode, if_pos rfl, bytesNode, if_neg htext]
      · rwa [typeNode, scalarNode, if_neg hbytes]
    | named name =>
      rw [hvalue] at h
      exact h.of_unrestricted (Or.inl rfl)
    | any =>
      rw [hvalue] at h
      exact h.of_unrestricted (Or.inr rfl)
    | array items unique | map values => rwa [hvalue] at h
    | nullable inner =>
      rw [hvalue] at hnullable
      cases hnullable

/-- The schemas of types and of properties are built of suited ones. -/
theorem buildClosed_suited : c.BuildClosed Suited where
  any := .of_annotations rfl rfl
  null := .of_annotations rfl rfl
  nominal _ := .of_annotations rfl rfl
  scalar := scalarNode_suited
  array _ _ := .of_keywords rfl ⟨fun _ => ⟨rfl, rfl, rfl, rfl, rfl⟩,
    fun _ _ => ⟨rfl, rfl, rfl, rfl, rfl⟩, fun h => absurd rfl h, fun _ => ⟨rfl, rfl⟩, fun _ => rfl⟩
  map _ := .of_annotations rfl rfl
  nullable _ _ := Node.suited_nullable _
  elements _ _ _ h := .of_keywords rfl (h _ rfl)
  values _ _ _ h := .of_keywords rfl (h _ rfl)
  constrained _ _ h := h.merge (suits_subject? (Mapping.suits_ofConstraints _ _))
  annotated _ _ hk h := h.merge (Keywords.suits_of_annotations hk)

/-- Of what a union offers for a variant, only the schema of the tag is not suited. -/
lemma variantNode_suited {keep : String → Bool} {discriminator : String} {v : UnionVariant}
    (h : n ∈ (variantNode discriminator v).parts keep) :
    n.Suited ∨ keep discriminator = true ∧ n = .any { constant := some (.string v.tag) } := by
  simp only [variantNode, Node.parts, Node.partsOfList, Node.partsOfProperties,
    Node.partsOfOption, List.append_nil, List.mem_cons, List.mem_append, List.not_mem_nil,
    or_false] at h
  rcases h with rfl | rfl | htag
  · exact Or.inl (.of_annotations rfl rfl)
  · exact Or.inl (.of_annotations rfl rfl)
  · split at htag
    · next hkeep => exact Or.inr ⟨hkeep, List.mem_singleton.mp htag⟩
    · cases htag

/-- Everything in the schema of a union but the schemas of tags is suited. -/
lemma build_union_suited {t : TypeDescription} {discriminator : String}
    {variants : List UnionVariant} (ht : t.kind = .union discriminator variants)
    {keep : String → Bool} (h : n ∈ (c.build t).parts keep) :
    n.Suited ∨ keep discriminator = true ∧ n.IsTagOf (c.build t) := by
  simp only [build, ht] at h ⊢
  rcases List.mem_cons.mp h with rfl | h
  · exact Or.inl (.of_annotations rfl rfl)
  · obtain ⟨entry, hentry, hn⟩ := Node.mem_partsOfList.mp h
    obtain ⟨v, hv, rfl⟩ := List.mem_map.mp hentry
    refine (variantNode_suited hn).imp id (And.imp_right ?_)
    rintro rfl
    exact ⟨_, _, _, _, _, rfl, rfl, hentry⟩

/-- In a built schema the keywords of every part suit what the part is about, and a part that is
about nothing has annotations alone.  Only the schemas of tags are excepted, which a union has
under its discriminator. -/
theorem build_suited (c : Configuration) (t : TypeDescription) :
    ((c.build t).All fun n => n.IsTagOf (c.build t) ∨
      n.Suited ∧ ∀ k, n.keywords? = some k → n.subject? = none → k.annotations = k) ∧
    ∀ discriminator variants, t.kind = .union discriminator variants →
      ∀ n ∈ (c.build t).parts (· != discriminator), n.Suited := by
  have hannotations : ∀ n : Node, n.Suited →
      n.Suited ∧ ∀ k, n.keywords? = some k → n.subject? = none → k.annotations = k :=
    fun n hn => ⟨hn, fun k hk hsubject => hn.annotations_eq hsubject hk⟩
  refine ⟨?_, fun discriminator variants hkind n hn => ?_⟩
  · cases hkind : t.kind with
    | object _ _ | enum _ =>
      have hall : (c.build t).All Suited := by
        refine all_build ?_ buildClosed_suited.typeNode buildClosed_suited.propertyNode ?_
        · simp only [build, hkind]
          exact .of_annotations rfl rfl
        · simp [hkind]
      exact fun n hn => Or.inr (hannotations n (hall n hn))
    | union discriminator variants =>
      intro n hn
      rcases build_union_suited hkind hn with hsuited | ⟨-, htag⟩
      · exact Or.inr (hannotations n hsuited)
      · exact Or.inl htag
  · refine (build_union_suited hkind hn).resolve_right fun h => ?_
    simp at h

/-- A union of birds that are told apart by their kind. -/
def birds : TypeDescription where
  name := .topLevel "" "Bird"
  schemaName := "Bird"
  kind := .union "kind" [⟨"owl", .topLevel "" "Owl"⟩]
  title := none
  description := some "Birds of the night."
  isRoot := true

/-- Without the kinds everything in the schema of birds is suited, and a kind is a tag. -/
theorem build_suited_birds :
    birds.kind = .union "kind" [⟨"owl", .topLevel "" "Owl"⟩] ∧
      (∀ n ∈ (({} : Configuration).build birds).parts (· != "kind"), n.Suited) ∧
      (Node.any { constant := some (.string "owl") }).IsTagOf
        (({} : Configuration).build birds) := by
  obtain ⟨hall, hothers⟩ := build_suited {} birds
  have htag : Node.any { constant := some (.string "owl") } ∈
      (({} : Configuration).build birds).parts fun _ => true := by
    simp [build, birds, variantNode, Node.parts, Node.partsOfList, Node.partsOfProperties]
  refine ⟨rfl, hothers _ _ rfl, (hall _ htag).resolve_right fun h => ?_⟩
  -- A schema of any value would have no constant if it were suited.
  have hconstant := (h.1 _ rfl).constant (by decide)
  cases hconstant

end Configuration

end SchemaCompiler
