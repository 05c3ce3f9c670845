import SchemaCompiler.Proofs.Schema.Keyword
import SchemaCompiler.Schema.Render

/-!
# The structure of written nodes

A node is written as its structure with its keywords around it (`Node.members_eq_around`).  The
structure is what the node is written as without any keywords, but a reference that keywords stand
next to is put inside `allOf` where the draft asks for it (`Node.structural`).

Beside null some nodes are written in another way: those without a plain type that null could be
added to, and those with a constant, which null would not meet (`Node.branches`).  Then a choice
between two branches is all the structure.  The annotations stand around the choice, and the other
keywords with the node in its first branch (`Node.members_of_branches`).

In either case the keys keep a fixed order, so no key comes twice (`Node.keys_members`).
-/

namespace SchemaCompiler

open Association (keys)
open Keywords (Member headKeys structureKeys bodyKeys tailKeys)

/-- Without keywords the structure stands alone. -/
lemma Keywords.around_none (structural : List Member) :
    ({} : Keywords).around structural = structural := by
  simp [around, head, body, tail, member, flag]

namespace Node

variable {draft : Draft} {n : Node} {k : Keywords} {orNull : Bool}

/-! ### Null beside a node -/

/-- Whether null is accepted beside a schema. -/
def isNullable : Node → Bool
  | nullable _ => true
  | _ => false

/-- The value schema is not nullable. -/
lemma isNullable_value : ∀ n : Node, n.value.isNullable = false
  | nullable inner => isNullable_value inner
  | any _ | null _ | scalar _ _ | enum _ _ | array _ _ | object _ _ _ _ _ _ | oneOf _ _
  | nominal _ _ | ref _ _ => rfl

/-- The value schema has keywords. -/
lemma exists_keywords : ∀ n : Node, ∃ k, n.value.keywords? = some k
  | nullable inner => exists_keywords inner
  | any k | null k | scalar _ k | enum _ k | array _ k | object _ _ _ _ _ k | oneOf _ k
  | nominal _ k | ref _ k => ⟨k, rfl⟩

/-- A node is written as its value schema, beside null if it is nullable. -/
lemma members_value (draft : Draft) : ∀ (n : Node) (orNull : Bool),
    n.members draft orNull = n.value.members draft (orNull || n.isNullable)
  | nullable inner, orNull => by
    rw [members, members_value draft inner true, Bool.true_or]
    simp only [value, isNullable, Bool.or_true]
  | any _, _ | null _, _ | scalar _ _, _ | enum _ _, _ | array _ _, _ | object _ _ _ _ _ _, _
  | oneOf _ _, _ | nominal _ _, _ | ref _ _, _ => by simp only [value, isNullable, Bool.or_false]

/-- Whether null beside the schema takes a branch of its own: where no plain type is written that
null could be added to, and where a constant would exclude null. -/
def branches : Node → Bool
  | scalar _ k | enum _ k | array _ k => k.constant.isSome
  | object typed _ _ _ _ k => !typed || k.constant.isSome
  | oneOf _ _ | nominal _ _ | ref _ _ => true
  | any _ | null _ | nullable _ => false

/-! ### Keys of the parts of an object -/

/-- The keys of members one after another. -/
lemma keys_append (first second : List Member) :
    keys (first ++ second) = keys first ++ keys second :=
  List.map_append

/-- An array that is left out has no key. -/
lemma keys_arrayMember (key : String) (items : List Json) :
    (keys (arrayMember key items)).Sublist [key] := by
  unfold arrayMember
  split
  · exact List.nil_sublist _
  · exact List.Sublist.refl _

/-- A map that is left out has no key. -/
lemma keys_objectMember (key : String) (members : List Member) :
    (keys (objectMember key members)).Sublist [key] := by
  unfold objectMember
  split
  · exact List.nil_sublist _
  · exact List.Sublist.refl _

/-- A node that is not there has no key. -/
lemma keys_renderOption (key : String) (n? : Option Node) :
    (keys (renderOption key draft n?)).Sublist [key] := by
  cases n? with
  | none => exact List.nil_sublist _
  | some n => exact List.Sublist.refl _

/-- What an object is written with besides its type. -/
def objectParts (draft : Draft) (allOf : List Node) (properties : List (String × Node))
    (required : List String) (additional : Option Node) : List Member :=
  arrayMember "allOf" (renderList draft allOf) ++
    objectMember "properties" (renderProperties draft properties) ++
    arrayMember "required" (required.map .string) ++
    renderOption "additionalProperties" draft additional

/-- The parts of an object keep the order of keys. -/
lemma keys_objectParts (draft : Draft) (allOf : List Node) (properties : List (String × Node))
    (required : List String) (additional : Option Node) :
    (keys (objectParts draft allOf properties required additional)).Sublist
      ["allOf", "properties", "required", "additionalProperties"] := by
  simp only [objectParts, keys_append]
  exact (((keys_arrayMember _ _).append (keys_objectMember _ _)).append
    (keys_arrayMember _ _)).append (keys_renderOption _ _)

/-! ### Structure -/

/-- The node without its keywords. -/
def bare (n : Node) : Node := n.mapKeywords fun _ => {}

/-- Whether keywords stand next to a reference in a draft that would ignore them. -/
def wraps (draft : Draft) : Node → Bool
  | ref _ k => !(k.isEmpty || draft.refAllowsSiblings)
  | _ => false

/-- What keywords are written around: the node without keywords, inside `allOf` where the draft
would ignore keywords next to it. -/
def structural (draft : Draft) (orNull : Bool) (n : Node) : List Member :=
  if n.wraps draft then [("allOf", .array [n.bare.render draft])] else n.bare.members draft orNull

/-- A schema with a plain type that null can be added to has its keywords around it. -/
lemma typedMembers_eq {structural : Bool → List Member}
    (h : (orNull && k.constant.isSome) = false) :
    typedMembers orNull k structural = k.around (structural orNull) := by
  rw [typedMembers, h]
  rfl

/-- An array is written with its type. -/
lemma members_array (items : Node) (k : Keywords) : (array items k).members draft orNull =
    typedMembers orNull k fun orNull =>
      [typeMember "array" orNull, ("items", items.render draft)] := by
  unfold members
  rfl

/-- An object is written with its type, if it is asserted. -/
lemma members_typedObject (allOf : List Node) (properties : List (String × Node))
    (required : List String) (additional : Option Node) (k : Keywords) :
    (object true allOf properties required additional k).members draft orNull =
      typedMembers orNull k fun orNull =>
        typeMember "object" orNull :: objectParts draft allOf properties required additional := by
  unfold members
  rfl

/-- An object whose type is not asserted is written without it. -/
lemma members_untypedObject (allOf : List Node) (properties : List (String × Node))
    (required : List String) (additional : Option Node) (k : Keywords) :
    (object false allOf properties required additional k).members draft orNull =
      untypedMembers orNull k fun _ =>
        objectParts draft allOf properties required additional := by
  unfold members
  rfl

/-- A choice is written without a type. -/
lemma members_oneOf (variants : List Node) (k : Keywords) :
    (oneOf variants k).members draft orNull =
    untypedMembers orNull k fun _ => [("oneOf", .array (renderList draft variants))] := by
  unfold members
  rfl

/-- A schema with a plain type and a constant is one of two branches beside null. -/
lemma typedMembers_of_constant {structural : Bool → List Member} (h : k.constant.isSome = true) :
    typedMembers true k structural = orNullMembers k fun _ => structural false := by
  rw [typedMembers, h]
  rfl

/-- A schema without a plain type is one of two branches beside null. -/
lemma untypedMembers_true (structural : Keywords → List Member) :
    untypedMembers true k structural = orNullMembers k structural := rfl

/-- A choice between a schema and null has the annotations around it. -/
lemma orNullMembers_eq (k : Keywords) (structural : Keywords → List Member) :
    orNullMembers k structural = k.annotations.around
      [("anyOf", .array [.object (k.assertions.around (structural k.assertions)),
        .object [typeMember "null" false]])] := by
  have hbody := k.body_annotations
  unfold orNullMembers Keywords.around
  rw [hbody, List.append_nil]

/-- What a node is written as with and without keywords is its structure, unless the structure has
to be put inside `allOf`. -/
lemma around_structural {members : List Member} (hwraps : n.wraps draft = false)
    (hmembers : n.members draft orNull = k.around members)
    (hbare : n.bare.members draft orNull = ({} : Keywords).around members)
    (hkeys : (keys members).Sublist (structureKeys.erase "anyOf")) :
    n.members draft orNull = k.around (n.structural draft orNull) ∧
      (keys (n.structural draft orNull)).Sublist (structureKeys.erase "anyOf") := by
  have hstructural : n.structural draft orNull = members := by
    rw [structural, if_neg (by rw [hwraps]; exact Bool.false_ne_true), hbare, Keywords.around_none]
  rw [hstructural]
  exact ⟨hmembers, hkeys⟩

/-- A node beside which null takes no branch is written as its structure with its keywords around
it.  The keys of the structure keep their order, and none of them is that of a choice. -/
theorem members_eq_around (draft : Draft) (hk : n.keywords? = some k)
    (h : (orNull && n.branches) = false) :
    n.members draft orNull = k.around (n.structural draft orNull) ∧
      (keys (n.structural draft orNull)).Sublist (structureKeys.erase "anyOf") := by
  have hnone : (orNull && ({} : Keywords).constant.isSome) = false := Bool.and_false orNull
  cases n with
  | nullable inner => cases hk
  | any k =>
    obtain rfl := Option.some.inj hk
    exact around_structural rfl rfl rfl (List.nil_sublist _)
  | null k =>
    obtain rfl := Option.some.inj hk
    exact around_structural rfl rfl rfl (show ["type"].Sublist _ by decide)
  | scalar primitive k =>
    obtain rfl := Option.some.inj hk
    exact around_structural rfl (typedMembers_eq h) (typedMembers_eq hnone)
      (show ["type"].Sublist _ by decide)
  | enum values k =>
    obtain rfl := Option.some.inj hk
    exact around_structural rfl (typedMembers_eq h) (typedMembers_eq hnone)
      (show ["type", "enum"].Sublist _ by decide)
  | array items k =>
    obtain rfl := Option.some.inj hk
    exact around_structural rfl ((members_array items k).trans (typedMembers_eq h))
      ((members_array items {}).trans (typedMembers_eq hnone))
      (show ["type", "items"].Sublist _ by decide)
  | object typed allOf properties required additional k =>
    obtain rfl := Option.some.inj hk
    have hparts := keys_objectParts draft allOf properties required additional
    have htyped : ["type", "allOf", "properties", "required", "additionalProperties"].Sublist
        (structureKeys.erase "anyOf") := by decide
    cases typed with
    | true =>
      exact around_structural rfl
        ((members_typedObject allOf properties required additional k).trans (typedMembers_eq h))
        ((members_typedObject allOf properties required additional {}).trans
          (typedMembers_eq hnone))
        ((hparts.cons_cons "type").trans htyped)
    | false =>
      obtain rfl : orNull = false := by simpa [branches] using h
      exact around_structural rfl rfl rfl ((hparts.cons "type").trans htyped)
  | oneOf variants k =>
    obtain rfl : orNull = false := by simpa [branches] using h
    obtain rfl := Option.some.inj hk
    exact around_structural rfl rfl rfl (show ["oneOf"].Sublist _ by decide)
  | nominal name k =>
    obtain rfl : orNull = false := by simpa [branches] using h
    obtain rfl := Option.some.inj hk
    exact around_structural rfl rfl rfl (List.nil_sublist _)
  | ref target k =>
    obtain rfl : orNull = false := by simpa [branches] using h
    obtain rfl := Option.some.inj hk
    have hbare : (ref target {}).members draft false = [("$ref", .string target.uri)] := by
      cases draft <;> rfl
    have hmembers : (ref target k).members draft false = k.around (refMembers draft target k) := rfl
    -- Keywords next to the reference put it inside `allOf` where the draft would ignore them.
    rw [hmembers, structural, bare, mapKeywords, render, hbare, refMembers, wraps]
    cases k.isEmpty || draft.refAllowsSiblings with
    | true => exact ⟨rfl, show ["$ref"].Sublist _ by decide⟩
    | false => exact ⟨rfl, show ["allOf"].Sublist _ by decide⟩

/-- A node beside which null takes a branch is written, beside null, as a choice with its
annotations around it.  The first branch is the node with all other keywords. -/
theorem members_of_branches (hk : n.keywords? = some k) (h : n.branches = true) :
    n.members draft true = k.annotations.around
      [("anyOf", .array [(n.mapKeywords Keywords.assertions).render draft,
        .object [typeMember "null" false]])] := by
  cases n with
  | any | null | nullable => cases h
  | scalar primitive k | enum values k =>
    obtain rfl := Option.some.inj hk
    exact (typedMembers_of_constant h).trans (orNullMembers_eq k _)
  | array items k =>
    obtain rfl := Option.some.inj hk
    rw [members_array, typedMembers_of_constant h, orNullMembers_eq]
    rfl
  | object typed allOf properties required additional k =>
    obtain rfl := Option.some.inj hk
    cases typed with
    | true =>
      rw [members_typedObject, typedMembers_of_constant h, orNullMembers_eq]
      rfl
    | false =>
      rw [members_untypedObject, untypedMembers_true, orNullMembers_eq]
      rfl
  | oneOf variants k =>
    obtain rfl := Option.some.inj hk
    rw [members_oneOf, untypedMembers_true, orNullMembers_eq]
    rfl
  | nominal name k | ref target k =>
    obtain rfl := Option.some.inj hk
    rw [members, untypedMembers_true, orNullMembers_eq]
    rfl

/-! ### Keys of written nodes -/

/-- The keys of a node, in the order in which they are written. -/
def memberKeys : List String := headKeys ++ structureKeys ++ bodyKeys ++ tailKeys

/-- The keys are distinct, and none of them is one that a document adds. -/
lemma nodup_memberKeys (draft : Draft) :
    ("$schema" :: "$id" :: memberKeys ++ [draft.definitionsKeyword]).Nodup := by
  cases draft <;> decide

/-- The keywords stand around the structure. -/
lemma keys_around {structural : List Member} (h : (keys structural).Sublist structureKeys) :
    (keys (k.around structural)).Sublist memberKeys := by
  simp only [Keywords.around, keys_append]
  exact ((k.keys_head.append h).append k.keys_body).append k.keys_tail

/-- The members of a node keep the order of keys. -/
theorem keys_members (draft : Draft) (n : Node) (orNull : Bool) :
    (keys (n.members draft orNull)).Sublist memberKeys := by
  obtain ⟨k, hk⟩ := n.exists_keywords
  rw [members_value]
  cases hbranches : (orNull || n.isNullable) && n.value.branches with
  | false =>
    obtain ⟨hmembers, hkeys⟩ := members_eq_around draft hk hbranches
    rw [hmembers]
    exact keys_around (hkeys.trans List.erase_sublist)
  | true =>
    obtain ⟨hnull, hvalue⟩ := Bool.and_eq_true_iff.mp hbranches
    rw [hnull, members_of_branches hk hvalue]
    exact keys_around (show ["anyOf"].Sublist structureKeys by decide)

end Node

end SchemaCompiler
