import SchemaCompiler.Proofs.FirstMention
import SchemaCompiler.Schema.Builder

/-!
# Placeholders of schemas

Which placeholders and references stand in a schema that was built and in the linked schema that
comes of it.  A built schema has no references, and placeholders only for types that the described
type names (`Configuration.build_within`).  A linked one has no placeholders, and a reference in the
place of each of them (`Node.mentions_link`, `Node.targets_link`).  What a placeholder is replaced
by depends on its own name alone (`Node.link_congr`).
-/

namespace SchemaCompiler

namespace Node

/-! ### Lists of schemas -/

/-- The placeholders in a list of schemas are those in its elements. -/
lemma mentionsOfList_eq (ns : List Node) : mentionsOfList ns = ns.flatMap mentions := by
  induction ns with
  | nil => rfl
  | cons n ns ih => rw [mentionsOfList, ih, List.flatMap_cons]

/-- The placeholders in properties are those in their schemas. -/
lemma mentionsOfProperties_eq (ps : List (String × Node)) :
    mentionsOfProperties ps = ps.flatMap fun p => p.2.mentions := by
  induction ps with
  | nil => rfl
  | cons p ps ih => rw [mentionsOfProperties, ih, List.flatMap_cons]

/-- The references in a list of schemas are those in its elements. -/
lemma targetsOfList_eq (ns : List Node) : targetsOfList ns = ns.flatMap targets := by
  induction ns with
  | nil => rfl
  | cons n ns ih => rw [targetsOfList, ih, List.flatMap_cons]

/-- The references in properties are those in their schemas. -/
lemma targetsOfProperties_eq (ps : List (String × Node)) :
    targetsOfProperties ps = ps.flatMap fun p => p.2.targets := by
  induction ps with
  | nil => rfl
  | cons p ps ih => rw [targetsOfProperties, ih, List.flatMap_cons]

/-- The references of a schema are distinct. -/
lemma nodup_references (n : Node) : n.references.Nodup := nodup_eraseDups n.targets

/-! ### Linking -/

variable {f g : TypeName → CanonicalId}

mutual

/-- No placeholder is left in a linked schema. -/
@[simp] theorem mentions_link (f : TypeName → CanonicalId) : ∀ n : Node, (n.link f).mentions = []
  | nominal _ _ | any _ | null _ | scalar _ _ | enum _ _ | ref _ _ => by simp [link, mentions]
  | array items _ => by simp [link, mentions, mentions_link f items]
  | nullable inner => by simp [link, mentions, mentions_link f inner]
  | oneOf variants _ => by simp [link, mentions, mentionsOfList_linkList f variants]
  | object _ allOf properties _ additional _ => by
    simp [link, mentions, mentionsOfList_linkList f allOf,
      mentionsOfProperties_linkProperties f properties, mentionsOfOption_linkOption f additional]

/-- No placeholder is left in linked schemas. -/
theorem mentionsOfList_linkList (f : TypeName → CanonicalId) :
    ∀ ns : List Node, mentionsOfList (linkList f ns) = []
  | [] => rfl
  | n :: ns => by
    simp [linkList, mentionsOfList, mentions_link f n, mentionsOfList_linkList f ns]

/-- No placeholder is left in linked properties. -/
theorem mentionsOfProperties_linkProperties (f : TypeName → CanonicalId) :
    ∀ ps : List (String × Node), mentionsOfProperties (linkProperties f ps) = []
  | [] => rfl
  | (_, n) :: ps => by
    simp [linkProperties, mentionsOfProperties, mentions_link f n,
      mentionsOfProperties_linkProperties f ps]

/-- No placeholder is left in a linked schema, if there is one. -/
theorem mentionsOfOption_linkOption (f : TypeName → CanonicalId) :
    ∀ n? : Option Node, mentionsOfOption (linkOption f n?) = []
  | none => rfl
  | some n => by simp [linkOption, mentionsOfOption, mentions_link f n]

end

mutual

/-- In a schema without references, linking leaves the references of its placeholders. -/
theorem targets_link (f : TypeName → CanonicalId) :
    ∀ n : Node, n.targets = [] → (n.link f).targets = n.mentions.map f
  | nominal _ _, _ | any _, _ | null _, _ | scalar _ _, _ | enum _ _, _ => by
    simp [link, targets, mentions]
  | ref _ _, h => by simp [targets] at h
  | array items _, h => by simpa [link, targets, mentions] using targets_link f items h
  | nullable inner, h => by simpa [link, targets, mentions] using targets_link f inner h
  | oneOf variants _, h => by
    simpa [link, targets, mentions] using targetsOfList_linkList f variants h
  | object _ allOf properties _ additional _, h => by
    simp only [targets, List.append_eq_nil_iff] at h
    simp [link, targets, mentions, targetsOfList_linkList f allOf h.1.1,
      targetsOfProperties_linkProperties f properties h.1.2,
      targetsOfOption_linkOption f additional h.2]

/-- Linking schemas without references leaves the references of their placeholders. -/
theorem targetsOfList_linkList (f : TypeName → CanonicalId) :
    ∀ ns : List Node, targetsOfList ns = [] →
      targetsOfList (linkList f ns) = (mentionsOfList ns).map f
  | [], _ => rfl
  | n :: ns, h => by
    simp only [targetsOfList, List.append_eq_nil_iff] at h
    simp [linkList, targetsOfList, mentionsOfList, targets_link f n h.1,
      targetsOfList_linkList f ns h.2]

/-- Linking properties without references leaves the references of their placeholders. -/
theorem targetsOfProperties_linkProperties (f : TypeName → CanonicalId) :
    ∀ ps : List (String × Node), targetsOfProperties ps = [] →
      targetsOfProperties (linkProperties f ps) = (mentionsOfProperties ps).map f
  | [], _ => rfl
  | (_, n) :: ps, h => by
    simp only [targetsOfProperties, List.append_eq_nil_iff] at h
    simp [linkProperties, targetsOfProperties, mentionsOfProperties, targets_link f n h.1,
      targetsOfProperties_linkProperties f ps h.2]

/-- Linking a schema without references, if there is one, leaves those of its placeholders. -/
theorem targetsOfOption_linkOption (f : TypeName → CanonicalId) :
    ∀ n? : Option Node, targetsOfOption n? = [] →
      targetsOfOption (linkOption f n?) = (mentionsOfOption n?).map f
  | none, _ => rfl
  | some n, h => by simpa [linkOption, targetsOfOption, mentionsOfOption] using targets_link f n h

end

mutual

/-- Linking looks at the names of placeholders only. -/
theorem link_congr : ∀ n : Node, (∀ name ∈ n.mentions, f name = g name) → n.link f = n.link g
  | any _, _ | null _, _ | scalar _ _, _ | enum _ _, _ | ref _ _, _ => by simp [link]
  | nominal name _, h => by simp [link, h name (by simp [mentions])]
  | array items _, h => by simp [link, link_congr items h]
  | nullable inner, h => by simp [link, link_congr inner h]
  | oneOf variants _, h => by simp [link, linkList_congr variants h]
  | object _ allOf properties _ additional _, h => by
    simp only [mentions, List.mem_append] at h
    simp [link, linkList_congr allOf fun name hname => h name (.inl (.inl hname)),
      linkProperties_congr properties fun name hname => h name (.inl (.inr hname)),
      linkOption_congr additional fun name hname => h name (.inr hname)]

/-- Linking schemas looks at the names of placeholders only. -/
theorem linkList_congr : ∀ ns : List Node, (∀ name ∈ mentionsOfList ns, f name = g name) →
    linkList f ns = linkList g ns
  | [], _ => rfl
  | n :: ns, h => by
    simp only [mentionsOfList, List.mem_append] at h
    simp [linkList, link_congr n fun name hname => h name (.inl hname),
      linkList_congr ns fun name hname => h name (.inr hname)]

/-- Linking properties looks at the names of placeholders only. -/
theorem linkProperties_congr :
    ∀ ps : List (String × Node), (∀ name ∈ mentionsOfProperties ps, f name = g name) →
      linkProperties f ps = linkProperties g ps
  | [], _ => rfl
  | (_, n) :: ps, h => by
    simp only [mentionsOfProperties, List.mem_append] at h
    simp [linkProperties, link_congr n fun name hname => h name (.inl hname),
      linkProperties_congr ps fun name hname => h name (.inr hname)]

/-- Linking a schema, if there is one, looks at the names of placeholders only. -/
theorem linkOption_congr : ∀ n? : Option Node, (∀ name ∈ mentionsOfOption n?, f name = g name) →
    linkOption f n? = linkOption g n?
  | none, _ => rfl
  | some n, h => by simp [linkOption, link_congr n h]

end

/-! ### Schemas without references -/

/-- A schema without references whose placeholders are among some names. -/
structure Within (names : List TypeName) (n : Node) : Prop where
  targets : n.targets = []
  mentions : n.mentions ⊆ names

variable {names : List TypeName} {n : Node}

/-- Keywords hold no placeholders and no references. -/
lemma Within.mapKeywords (h : n.Within names) (f : Keywords → Keywords) :
    (n.mapKeywords f).Within names := by
  cases n <;> exact ⟨h.targets, h.mentions⟩

/-- A change of the value node that keeps to some names keeps the whole schema to them. -/
lemma Within.mapValue {f : Node → Node} (hf : ∀ m : Node, m.Within names → (f m).Within names)
    (h : n.Within names) : (n.mapValue f).Within names := by
  fun_induction Node.mapValue f n with
  | case1 inner ih =>
    have hinner : (inner.mapValue f).Within names := ih ⟨h.targets, h.mentions⟩
    exact ⟨hinner.targets, hinner.mentions⟩
  | case2 n => exact hf n h

/-- Merged keywords add no placeholders and no references. -/
lemma Within.merge (h : n.Within names) (k : Keywords) : (n.merge k).Within names :=
  h.mapValue fun _ hm => hm.mapKeywords _

/-- Null mentions nothing. -/
lemma null_within {k : Keywords} : (null k).Within names := ⟨rfl, List.nil_subset _⟩

end Node

/-! ### Building -/

namespace Configuration

variable {c : Configuration} {names : List TypeName} {n : Node}

/-- A scalar mentions nothing. -/
lemma scalarNode_within (kind : Scalar) : (c.scalarNode kind).Within names := by
  unfold scalarNode bytesNode
  split
  · split
    · exact ⟨rfl, List.nil_subset _⟩
    · exact ⟨rfl, List.nil_subset _⟩
  · exact ⟨rfl, List.nil_subset _⟩

/-- The schema of a type mentions the types that it names. -/
lemma typeNode_within (type : ResolvedType) : (c.typeNode type).Within type.mentions := by
  induction type with
  | scalar kind => exact scalarNode_within kind
  | named name => exact ⟨rfl, List.Subset.refl _⟩
  | array items unique ih => exact ⟨ih.targets, ih.mentions⟩
  | map values ih =>
    refine ⟨?_, ?_⟩
    · simpa [typeNode, Node.targets, Node.targetsOfList, Node.targetsOfProperties,
        Node.targetsOfOption] using ih.targets
    · simpa [typeNode, Node.mentions, Node.mentionsOfList, Node.mentionsOfProperties,
        Node.mentionsOfOption, ResolvedType.mentions] using ih.mentions
  | nullable inner ih =>
    unfold typeNode
    split
    · exact ⟨ih.targets, ih.mentions⟩
    · exact ih
  | any => exact ⟨rfl, List.nil_subset _⟩

/-- Constraints leave the placeholders of a schema, or leave null alone. -/
lemma constrain_within (mapping : Mapping) (h : n.Within names) :
    (constrain mapping n).Within names := by
  unfold constrain
  split
  · exact Node.null_within
  · exact h.merge _

/-- A change of the elements that keeps to some names keeps a collection to them. -/
lemma mapItems_within {f : Node → Node} (hf : ∀ m : Node, m.Within names → (f m).Within names)
    (h : n.Within names) : (mapItems f n).Within names := by
  unfold mapItems
  split
  · next items k =>
    have hitems : (f items).Within names := hf items ⟨h.targets, h.mentions⟩
    exact ⟨hitems.targets, hitems.mentions⟩
  · next typed allOf properties required values k =>
    obtain ⟨htargets, hmentions⟩ := h
    simp only [Node.targets, Node.targetsOfOption, List.append_eq_nil_iff] at htargets
    simp only [Node.mentions, Node.mentionsOfOption, List.append_subset] at hmentions
    have hvalues : (f values).Within names := hf values ⟨htargets.2, hmentions.2⟩
    constructor
    · simp [Node.targets, Node.targetsOfOption, htargets.1, hvalues.targets]
    · simp only [Node.mentions, Node.mentionsOfOption, List.append_subset]
      exact ⟨hmentions.1, hvalues.mentions⟩
  · exact h

/-- Constraints on elements keep the placeholders of a schema. -/
lemma constrainItems_within (p : PropertyDescription) (h : n.Within names) :
    (c.constrainItems p n).Within names := by
  unfold constrainItems
  split
  · exact h.mapValue fun _ hm => mapItems_within (fun _ => constrain_within _) hm
  · exact h

/-- The schema of a property mentions types that the property names. -/
lemma propertyNode_within (p : PropertyDescription) :
    (c.propertyNode p).Within p.type.mentions := by
  unfold propertyNode
  dsimp only
  split
  · exact Node.null_within.merge _
  · exact (constrainItems_within p ((typeNode_within p.type).merge _)).merge _

/-- The schema of an object type mentions types that its properties and additional properties
name. -/
lemma object_within {properties : List PropertyDescription} {additional : Option ResolvedType}
    {required : List String} {k : Keywords} :
    (Node.object true [] (properties.map fun p => (p.name, c.propertyNode p)) required
      (additional.map c.typeNode) k).Within (TypeKind.object properties additional).mentions where
  targets := by
    have hproperties : properties.flatMap (fun p => (c.propertyNode p).targets) = [] :=
      List.flatMap_eq_nil_iff.mpr fun p _ => (propertyNode_within p).targets
    have hadditional : Node.targetsOfOption (additional.map c.typeNode) = [] := by
      cases additional with
      | none => rfl
      | some type => exact (typeNode_within type).targets
    simp [Node.targets, Node.targetsOfList, Node.targetsOfProperties_eq, List.flatMap_map,
      hproperties, hadditional]
  mentions := by
    simp only [Node.mentions, Node.mentionsOfList, Node.mentionsOfProperties_eq, List.flatMap_map,
      List.nil_append, TypeKind.mentions]
    refine List.append_subset.mpr ⟨?_, ?_⟩
    · intro name hname
      obtain ⟨p, hp, hname⟩ := List.mem_flatMap.mp hname
      exact List.mem_append_left _ (List.mem_flatMap.mpr
        ⟨p, hp, (propertyNode_within p).mentions hname⟩)
    · cases additional with
      | none => exact List.nil_subset _
      | some type =>
        intro name hname
        refine List.mem_append_right _ ?_
        simpa using (typeNode_within type).mentions hname

/-- The schema of a union mentions the types of its variants. -/
lemma union_within {discriminator : String} {variants : List UnionVariant} {k : Keywords} :
    (Node.oneOf (variants.map (variantNode discriminator)) k).Within
      (TypeKind.union discriminator variants).mentions where
  targets := by
    simp [Node.targets, Node.targetsOfList_eq, List.flatMap_map, variantNode,
      Node.targetsOfProperties, Node.targetsOfOption]
  mentions := by
    intro name hname
    simpa [Node.mentions, Node.mentionsOfList_eq, List.flatMap_map, variantNode,
      Node.mentionsOfProperties, Node.mentionsOfOption, TypeKind.mentions, eq_comm] using hname

/-- The schema of a described type has no references, and placeholders only for types that the
described type names. -/
theorem build_within (c : Configuration) (t : TypeDescription) :
    (c.build t).Within t.mentions := by
  unfold build TypeDescription.mentions
  dsimp only
  split
  · next properties additional hkind =>
    rw [hkind]
    exact object_within
  · exact ⟨rfl, List.nil_subset _⟩
  · next discriminator variants hkind =>
    rw [hkind]
    exact union_within

end Configuration

end SchemaCompiler
