import SchemaCompiler.Proofs.Schema.Placeholder

/-!
# Documentation in schemas

Titles and descriptions are kept or left out by settings of their own.  `Node.undocumented` removes
both from every schema inside a schema.  Without them a built schema does not depend on these
settings (`Configuration.undocumented_build`): keywords are merged each by itself, and constraints,
placeholders and references have nothing to do with documentation.
-/

namespace SchemaCompiler

/-! ### Schemas without documentation -/

/-- The keywords without a title and a description. -/
def Keywords.undocumented (k : Keywords) : Keywords :=
  { k with title := Option.none, description := Option.none }

/-- Keywords are merged each by itself. -/
lemma Keywords.undocumented_merge (k other : Keywords) :
    (k.merge other).undocumented = k.undocumented.merge other.undocumented := rfl

namespace Node

mutual

/-- The schema without any title or description inside it. -/
def undocumented : Node → Node
  | any k => any k.undocumented
  | null k => null k.undocumented
  | scalar primitive k => scalar primitive k.undocumented
  | enum values k => enum values k.undocumented
  | array items k => array items.undocumented k.undocumented
  | object typed allOf properties required additional k =>
    object typed (undocumentedList allOf) (undocumentedProperties properties) required
      (undocumentedOption additional) k.undocumented
  | nullable inner => nullable inner.undocumented
  | oneOf variants k => oneOf (undocumentedList variants) k.undocumented
  | nominal name k => nominal name k.undocumented
  | ref target k => ref target k.undocumented

/-- The schemas of a list without documentation. -/
def undocumentedList : List Node → List Node
  | [] => []
  | n :: ns => n.undocumented :: undocumentedList ns

/-- Properties without documentation. -/
def undocumentedProperties : List (String × Node) → List (String × Node)
  | [] => []
  | (name, n) :: ps => (name, n.undocumented) :: undocumentedProperties ps

/-- A schema without documentation, if there is one. -/
def undocumentedOption : Option Node → Option Node
  | none => none
  | some n => some n.undocumented

end

/-- Properties lose their documentation one by one. -/
lemma undocumentedProperties_eq (ps : List (String × Node)) :
    undocumentedProperties ps = ps.map fun p => (p.1, p.2.undocumented) := by
  induction ps with
  | nil => rw [undocumentedProperties, List.map_nil]
  | cons p ps ih => rw [undocumentedProperties, ih, List.map_cons]

/-! ### What documentation does not touch -/

mutual

/-- Placeholders are no documentation. -/
theorem mentions_undocumented : ∀ n : Node, n.undocumented.mentions = n.mentions
  | any _ | null _ | scalar _ _ | enum _ _ | nominal _ _ | ref _ _ => by
    rw [undocumented, mentions, mentions]
  | array items _ => by
    rw [undocumented, mentions, mentions, mentions_undocumented items]
  | nullable inner => by
    rw [undocumented, mentions, mentions, mentions_undocumented inner]
  | oneOf variants _ => by
    rw [undocumented, mentions, mentions, mentionsOfList_undocumented variants]
  | object _ allOf properties _ additional _ => by
    rw [undocumented, mentions, mentions, mentionsOfList_undocumented allOf,
      mentionsOfProperties_undocumented properties, mentionsOfOption_undocumented additional]
termination_by structural n => n

/-- Placeholders in a list are no documentation. -/
theorem mentionsOfList_undocumented : ∀ ns : List Node,
    mentionsOfList (undocumentedList ns) = mentionsOfList ns
  | [] => by rw [undocumentedList]
  | n :: ns => by
    rw [undocumentedList, mentionsOfList, mentionsOfList, mentions_undocumented n,
      mentionsOfList_undocumented ns]
termination_by structural ns => ns

/-- Placeholders in properties are no documentation. -/
theorem mentionsOfProperties_undocumented : ∀ ps : List (String × Node),
    mentionsOfProperties (undocumentedProperties ps) = mentionsOfProperties ps
  | [] => by rw [undocumentedProperties]
  | (_, n) :: ps => by
    rw [undocumentedProperties, mentionsOfProperties, mentionsOfProperties,
      mentions_undocumented n, mentionsOfProperties_undocumented ps]
termination_by structural ps => ps

/-- Placeholders in a schema, if there is one, are no documentation. -/
theorem mentionsOfOption_undocumented : ∀ n? : Option Node,
    mentionsOfOption (undocumentedOption n?) = mentionsOfOption n?
  | none => by rw [undocumentedOption]
  | some n => by
    rw [undocumentedOption, mentionsOfOption, mentionsOfOption, mentions_undocumented n]
termination_by structural n? => n?

end

mutual

/-- Placeholders are replaced with or without documentation. -/
theorem undocumented_link (f : TypeName → CanonicalId) : ∀ n : Node,
    (n.link f).undocumented = n.undocumented.link f
  | any _ | null _ | scalar _ _ | enum _ _ | nominal _ _ | ref _ _ => by
    simp only [link, undocumented]
  | array items _ => by
    simp only [link, undocumented, undocumented_link f items]
  | nullable inner => by
    simp only [link, undocumented, undocumented_link f inner]
  | oneOf variants _ => by
    simp only [link, undocumented, undocumentedList_linkList f variants]
  | object _ allOf properties _ additional _ => by
    simp only [link, undocumented, undocumentedList_linkList f allOf,
      undocumentedProperties_linkProperties f properties,
      undocumentedOption_linkOption f additional]
termination_by structural n => n

/-- Placeholders in a list are replaced with or without documentation. -/
theorem undocumentedList_linkList (f : TypeName → CanonicalId) : ∀ ns : List Node,
    undocumentedList (linkList f ns) = linkList f (undocumentedList ns)
  | [] => by simp only [linkList, undocumentedList]
  | n :: ns => by
    simp only [linkList, undocumentedList, undocumented_link f n, undocumentedList_linkList f ns]
termination_by structural ns => ns

/-- Placeholders in properties are replaced with or without documentation. -/
theorem undocumentedProperties_linkProperties (f : TypeName → CanonicalId) :
    ∀ ps : List (String × Node),
      undocumentedProperties (linkProperties f ps) = linkProperties f (undocumentedProperties ps)
  | [] => by simp only [linkProperties, undocumentedProperties]
  | (_, n) :: ps => by
    simp only [linkProperties, undocumentedProperties, undocumented_link f n,
      undocumentedProperties_linkProperties f ps]
termination_by structural ps => ps

/-- Placeholders in a schema, if there is one, are replaced with or without documentation. -/
theorem undocumentedOption_linkOption (f : TypeName → CanonicalId) : ∀ n? : Option Node,
    undocumentedOption (linkOption f n?) = linkOption f (undocumentedOption n?)
  | none => by simp only [linkOption, undocumentedOption]
  | some n => by simp only [linkOption, undocumentedOption, undocumented_link f n]
termination_by structural n? => n?

end

/-- Keywords are merged into a schema with or without its documentation. -/
lemma undocumented_merge (n : Node) (k : Keywords) :
    (n.merge k).undocumented = n.undocumented.merge k.undocumented := by
  unfold merge
  fun_induction value n with
  | case1 inner ih =>
    rw [mapValue, undocumented, ih, undocumented, mapValue]
  | case2 n hn =>
    cases n with
    | nullable inner => exact absurd rfl (hn inner)
    | _ =>
      simp only [mapValue, mapKeywords, undocumented, Keywords.undocumented_merge]

end Node

/-! ### Built schemas -/

namespace Configuration

variable (c : Configuration) (title : TitlePolicy) (description : DescriptionPolicy)

/-- The settings with others for titles and descriptions. -/
def redocumented : Configuration := { c with title, description }

/-- Types have the same schemas, whatever is documented. -/
lemma typeNode_redocumented (type : ResolvedType) :
    (c.redocumented title description).typeNode type = c.typeNode type := by
  have hnull : (c.redocumented title description).nullInclusion = c.nullInclusion := rfl
  have hbytes : (c.redocumented title description).binaryAsArray = c.binaryAsArray := rfl
  exact typeNode_congr hnull hbytes type

/-- Without documentation, properties have the same schemas. -/
lemma undocumented_propertyNode (p : PropertyDescription) :
    ((c.redocumented title description).propertyNode p).undocumented =
      (c.propertyNode p).undocumented := by
  unfold propertyNode
  dsimp only
  rw [Node.undocumented_merge, Node.undocumented_merge, typeNode_redocumented]
  rfl

/-- Without documentation, declared types have the same schemas. -/
theorem undocumented_build (t : TypeDescription) :
    ((c.redocumented title description).build t).undocumented = (c.build t).undocumented := by
  unfold build
  cases t.kind with
  | object properties additional =>
    simp only [Node.undocumented, Node.undocumentedProperties_eq, List.map_map,
      Function.comp_def, undocumented_propertyNode,
      funext (c.typeNode_redocumented title description)]
    rfl
  | enum values => rfl
  | union discriminator variants => rfl

/-- Declared types mention the same types. -/
lemma mentions_redocumented (t : TypeDescription) :
    ((c.redocumented title description).build t).mentions = (c.build t).mentions := by
  rw [← Node.mentions_undocumented, undocumented_build, Node.mentions_undocumented]

end Configuration

end SchemaCompiler
