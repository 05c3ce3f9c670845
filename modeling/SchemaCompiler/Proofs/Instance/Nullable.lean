import SchemaCompiler.Proofs.Instance.Acceptance
import SchemaCompiler.Proofs.Schema.Built

/-!
# What nullable schemas accept

A nullable schema is written in one of three ways: as the inner one, with null beside its type, or
as a choice between the inner one and null.  Each of them accepts null and what the inner schema
accepts (`Node.accepts_orNull_iff`), provided that nothing but its type keeps null out of the inner
schema.  Built schemas see to that, so nullable schemas mean what they should wherever they occur in
one (`Configuration.accepts_nullable_iff`).
-/

namespace SchemaCompiler

namespace Json

variable {v : Json}

/-- Null is the only value of its type. -/
lemma hasType_null_iff : v.hasType "null" = true ↔ v = .null := by
  cases v with
  | null => exact iff_of_true rfl rfl
  | bool | number | string | array | object => exact iff_of_false Bool.false_ne_true nofun

/-- The values of the type of texts are the texts. -/
lemma hasType_string_iff : v.hasType "string" = true ↔ ∃ text, v = .string text := by
  cases v with
  | string text => exact iff_of_true rfl ⟨text, rfl⟩
  | null | bool | number | array | object => exact iff_of_false Bool.false_ne_true nofun

end Json

namespace Node

open Interpretation (declared)
open Keywords (Member)

variable {I : Interpretation} {k : Keywords} {v : Json} {names : List String}
  {members : List Member}

/-! ### Ways to write a nullable schema -/

/-- A type accepts the values of it, and null if it stands beside the type. -/
lemma acceptsMembers_typeMember (type : String) (orNull : Bool) :
    I.acceptsMembers names (typeMember type orNull :: members) v = true ↔
      (v.hasType type = true ∨ orNull = true ∧ v = .null) ∧
        I.acceptsMembers names members v = true := by
  have hdata : Json.placeOf none "type" = .data := rfl
  unfold typeMember
  rw [Interpretation.acceptsMembers_cons_of_data hdata, Bool.and_eq_true]
  refine and_congr_left fun _ => ?_
  cases orNull with
  | true =>
    have hasserts : I.asserts "type" (.ofStrings [type, "null"]) v =
        (v.hasType type || (v.hasType "null" || false)) := rfl
    rw [if_pos rfl, hasserts, Bool.or_false, Bool.or_eq_true, Json.hasType_null_iff]
    simp
  | false =>
    have hasserts : I.asserts "type" (.string type) v = (v.hasType type || false) := rfl
    rw [if_neg Bool.false_ne_true, hasserts, Bool.or_false]
    simp

/-- The schema of null accepts null alone. -/
lemma accepts_null_iff : I.accepts (.object [typeMember "null" false]) v = true ↔ v = .null := by
  have honly : I.only? [typeMember "null" false] = none := Interpretation.only?_eq_none (by decide)
  rw [Interpretation.accepts, honly]
  dsimp only
  rw [acceptsMembers_typeMember, Json.hasType_null_iff]
  simp [Interpretation.acceptsMembers]

/-- A choice between a schema and null accepts null and what the schema accepts. -/
theorem accepts_orNullMembers_iff (structural : Keywords → List Member) :
    I.accepts (.object (orNullMembers k structural)) v = true ↔
      v = .null ∨ I.accepts (.object (k.assertions.around (structural k.assertions))) v = true := by
  let branches : List Json := [.object (k.assertions.around (structural k.assertions)),
    .object [typeMember "null" false]]
  have haround : orNullMembers k structural =
      k.annotations.around [("anyOf", .array branches)] := orNullMembers_eq k structural
  have honly : I.only? [("anyOf", .array branches)] = none := by
    have hkeys : Association.keys [("anyOf", Json.array branches)] = ["anyOf"] := rfl
    refine Interpretation.only?_eq_none ?_
    rw [hkeys]
    decide
  have hplace : Json.placeOf none "anyOf" = .schemas := rfl
  have hcount : I.acceptances branches v =
      (I.accepts (.object (k.assertions.around (structural k.assertions))) v).toNat +
        (I.accepts (.object [typeMember "null" false]) v).toNat := by
    simp [branches, Interpretation.acceptances]
  rw [haround, Interpretation.accepts_around honly, Interpretation.holds_annotations,
    Bool.and_true, Interpretation.acceptsMembers, hplace]
  dsimp only
  rw [Interpretation.acceptsList, if_neg (by decide), if_pos rfl, hcount,
    Interpretation.acceptsMembers, Bool.and_true, ← accepts_null_iff]
  cases I.accepts (.object (k.assertions.around (structural k.assertions))) v <;>
    cases I.accepts (.object [typeMember "null" false]) v <;> decide

/-- Annotations make no difference to what keywords around a structure accept. -/
lemma accepts_assertions_around :
    I.accepts (.object (k.assertions.around members)) v =
      I.accepts (.object (k.around members)) v := by
  cases honly : I.only? members with
  | none => rw [Interpretation.accepts_around honly, Interpretation.accepts_around honly,
      Interpretation.holds_assertions]
  | some target => rw [Interpretation.accepts_around_of_only? honly,
      Interpretation.accepts_around_of_only? honly]

/-- A schema with a plain type, and null beside it. -/
theorem accepts_typedMembers_iff {structural : Bool → List Member}
    (honly : ∀ orNull, I.only? (structural orNull) = none)
    (h : I.acceptsMembers (declared (structural true)) (structural true) v = true ↔
      v = .null ∨ I.acceptsMembers (declared (structural false)) (structural false) v = true) :
    I.accepts (.object (typedMembers true k structural)) v = true ↔
      v = .null ∨ I.accepts (.object (typedMembers false k structural)) v = true := by
  unfold typedMembers
  cases hconstant : k.constant with
  | none =>
    have hnull : v = .null → I.holds k v = true := by
      rintro rfl
      exact Interpretation.holds_null hconstant
    simp only [Option.isSome_none, Bool.and_false, Bool.false_eq_true, if_false]
    rw [Interpretation.accepts_around (honly true), Interpretation.accepts_around (honly false),
      Bool.and_eq_true, Bool.and_eq_true, h]
    constructor
    · rintro ⟨hv | hv, hk⟩
      · exact Or.inl hv
      · exact Or.inr ⟨hv, hk⟩
    · rintro (hv | ⟨hv, hk⟩)
      · exact ⟨Or.inl hv, hnull hv⟩
      · exact ⟨Or.inr hv, hk⟩
  | some value =>
    simp only [Option.isSome_some, Bool.and_true, Bool.false_eq_true, if_true, if_false]
    rw [accepts_orNullMembers_iff, accepts_assertions_around]

/-- A schema without a plain type, and null as a choice. -/
theorem accepts_untypedMembers_iff {structural : Keywords → List Member}
    (h : I.accepts (.object (k.assertions.around (structural k.assertions))) v =
      I.accepts (.object (k.around (structural k))) v) :
    I.accepts (.object (untypedMembers true k structural)) v = true ↔
      v = .null ∨ I.accepts (.object (untypedMembers false k structural)) v = true := by
  unfold untypedMembers
  rw [if_pos rfl, if_neg Bool.false_ne_true, accepts_orNullMembers_iff, h]

/-! ### Structures with a type -/

/-- A type declares no properties. -/
lemma declared_typeMember (type : String) (orNull : Bool) :
    declared (typeMember type orNull :: members) = declared members := rfl

/-- Null beside the type of a structure that says nothing else about null. -/
lemma accepts_typeMember_iff {type : String} {others : List Member} (k : Keywords)
    (hreference : "$ref" ∉ Association.keys others)
    (hnull : I.acceptsMembers (declared others) others .null = true) :
    I.accepts (.object (typedMembers true k fun orNull => typeMember type orNull :: others)) v =
        true ↔
      v = .null ∨
        I.accepts (.object (typedMembers false k fun orNull =>
          typeMember type orNull :: others)) v = true := by
  refine accepts_typedMembers_iff (fun orNull => ?_) ?_
  · have hkeys : Association.keys (typeMember type orNull :: others) =
        "type" :: Association.keys others := rfl
    refine Interpretation.only?_eq_none ?_
    rw [hkeys, List.mem_cons, not_or]
    exact ⟨by decide, hreference⟩
  · rw [declared_typeMember, declared_typeMember, acceptsMembers_typeMember,
      acceptsMembers_typeMember]
    constructor
    · rintro ⟨htype | ⟨-, hv⟩, hrest⟩
      · exact Or.inr ⟨Or.inl htype, hrest⟩
      · exact Or.inl hv
    · rintro (rfl | ⟨htype | ⟨hfalse, -⟩, hrest⟩)
      · exact ⟨Or.inr ⟨rfl, rfl⟩, hnull⟩
      · exact ⟨Or.inl htype, hrest⟩
      · cases hfalse

/-- The texts of an enumeration, with null beside them where it is accepted too. -/
lemma acceptsMembers_texts (values : List String) (orNull : Bool) :
    I.acceptsMembers names
        [("enum", .array (values.map .string ++ if orNull then [.null] else []))] v =
      ((values.map .string).any (Json.same · v) || orNull && Json.same .null v) := by
  have hdata : Json.placeOf none "enum" = .data := rfl
  have hasserts : ∀ items, I.asserts "enum" (.array items) v = items.any (Json.same · v) :=
    fun _ => rfl
  rw [Interpretation.acceptsMembers_cons_of_data hdata, hasserts, List.any_append,
    Interpretation.acceptsMembers, Bool.and_true]
  cases orNull with
  | true => rw [if_pos rfl, List.any_cons, List.any_nil, Bool.or_false, Bool.true_and]
  | false => rw [if_neg Bool.false_ne_true, List.any_nil, Bool.false_and]

/-- Null beside the type and the texts of an enumeration. -/
lemma accepts_enum_iff (values : List String) (k : Keywords) (draft : Draft) :
    I.accepts (.object ((enum values k).members draft true)) v = true ↔
      v = .null ∨ I.accepts (.object ((enum values k).members draft false)) v = true := by
  unfold Node.members
  refine accepts_typedMembers_iff (fun orNull => ?_) ?_
  · have hkeys : Association.keys [typeMember "string" orNull,
        ("enum", .array (values.map .string ++ if orNull then [.null] else []))] =
          ["type", "enum"] := rfl
    refine Interpretation.only?_eq_none ?_
    rw [hkeys]
    decide
  · rw [acceptsMembers_typeMember, acceptsMembers_typeMember, acceptsMembers_texts,
      acceptsMembers_texts, Bool.or_eq_true, Bool.or_eq_true]
    constructor
    · rintro ⟨htype | ⟨-, rfl⟩, htexts⟩
      · -- Null is none of the texts, so a text that is accepted is one of them.
        obtain ⟨text, rfl⟩ := Json.hasType_string_iff.mp htype
        exact Or.inr ⟨Or.inl rfl, htexts⟩
      · exact Or.inl rfl
    · rintro (rfl | ⟨htype | ⟨hfalse, -⟩, htexts⟩)
      · exact ⟨Or.inr ⟨rfl, rfl⟩, Or.inr rfl⟩
      · obtain ⟨text, rfl⟩ := Json.hasType_string_iff.mp htype
        exact ⟨Or.inl rfl, htexts⟩
      · cases hfalse

/-- There is no reference in the structure of an object. -/
lemma reference_not_mem_keys_object (draft : Draft) (allOf : List Node)
    (properties : List (String × Node)) (required : List String) (additional : Option Node) :
    "$ref" ∉ Association.keys
      (arrayMember "allOf" (renderList draft allOf) ++
        objectMember "properties" (renderProperties draft properties) ++
        arrayMember "required" (required.map .string) ++
        renderOption "additionalProperties" draft additional) := by
  have hkeys := keys_objectParts draft allOf properties required additional
  intro hmem
  exact absurd (hkeys.subset hmem) (by decide)

/-- The structure of an object without other schemas to fulfil says nothing about null. -/
lemma acceptsMembers_object_null (draft : Draft) (properties : List (String × Node))
    (required : List String) (additional : Option Node) :
    I.acceptsMembers names
      (arrayMember "allOf" (renderList draft []) ++
        objectMember "properties" (renderProperties draft properties) ++
        arrayMember "required" (required.map .string) ++
        renderOption "additionalProperties" draft additional) .null = true := by
  have hschemas : ∀ schemas : List Member, I.acceptsProperties schemas [] = true := by
    intro schemas
    induction schemas with
    | nil => rfl
    | cons schema schemas ih => exact ih
  have hproperties : I.acceptsMembers names
      (objectMember "properties" (renderProperties draft properties)) .null = true := by
    unfold objectMember
    split
    · rfl
    · rw [Interpretation.acceptsMembers, Bool.and_eq_true]
      exact ⟨hschemas _, rfl⟩
  have hrequired : I.acceptsMembers names (arrayMember "required" (required.map .string)) .null =
      true := by
    unfold arrayMember
    split
    · rfl
    · rfl
  have hadditional : I.acceptsMembers names (renderOption "additionalProperties" draft additional)
      .null = true := by
    cases additional with
    | none => rfl
    | some n => rfl
  rw [Interpretation.acceptsMembers_append, Interpretation.acceptsMembers_append,
    Interpretation.acceptsMembers_append, hproperties, hrequired, hadditional]
  rfl

/-! ### References -/

/-- A reference on its own accepts what the definition does. -/
lemma accepts_reference (uri : String) :
    I.accepts (.object [("$ref", .string uri)]) v = I.definition uri v := by
  have hreference : Json.placeOf none "$ref" = .reference := rfl
  have hlookup : ([("$ref", .string uri)] : List Member).lookup "$ref" = some (.string uri) := rfl
  rw [Interpretation.accepts, Interpretation.only?, hlookup]
  cases I.draft.refAllowsSiblings with
  | true =>
    rw [if_pos rfl]
    dsimp only
    rw [Interpretation.acceptsMembers, hreference]
    simp [Interpretation.acceptsMembers, Interpretation.refers, Json.asString?]
  | false =>
    rw [if_neg Bool.false_ne_true]
    simp [Interpretation.refers, Json.asString?]

/-- A reference accepts what the definition and the keywords beside it do, in either spelling. -/
theorem accepts_around_refMembers (target : CanonicalId) (k : Keywords) :
    I.accepts (.object (k.around (refMembers I.draft target k))) v =
      (I.definition target.uri v && I.holds k v) := by
  have hreference : Json.placeOf none "$ref" = .reference := rfl
  have hallOf : Json.placeOf none "allOf" = .schemas := rfl
  unfold refMembers
  cases hsiblings : I.draft.refAllowsSiblings with
  | true =>
    have honly : I.only? [("$ref", .string target.uri)] = none := by
      rw [Interpretation.only?, hsiblings, if_pos rfl]
    rw [Bool.or_true, if_pos rfl, Interpretation.accepts_around honly,
      Interpretation.acceptsMembers, hreference]
    simp [Interpretation.refers, Interpretation.acceptsMembers, Json.asString?]
  | false =>
    cases hempty : k.isEmpty with
    | true =>
      have honly : I.only? [("$ref", .string target.uri)] = some (.string target.uri) := by
        rw [Interpretation.only?, hsiblings]
        rfl
      have hbody : k.body = [] := by
        simp only [Keywords.isEmpty, Bool.and_eq_true, List.isEmpty_iff] at hempty
        exact hempty.1.2
      rw [Bool.or_false, if_pos rfl, Interpretation.accepts_around_of_only? honly,
        Interpretation.holds, hbody]
      simp [Interpretation.refers, Json.asString?]
    | false =>
      have honly : I.only? [("allOf", .array [.object [("$ref", .string target.uri)]])] = none :=
        Interpretation.only?_eq_none (by simp [Association.keys])
      rw [Bool.or_false, if_neg Bool.false_ne_true, Interpretation.accepts_around honly,
        Interpretation.acceptsMembers, hallOf]
      simp only [Interpretation.acceptsList, Interpretation.acceptances, accepts_reference,
        Interpretation.acceptsMembers]
      cases I.definition target.uri v <;> rfl

/-! ### Nullable schemas -/

/-- Where null is accepted too, a schema that admits null accepts null and what it accepts
otherwise. -/
theorem accepts_orNull_iff : ∀ n : Node, n.AdmitsNull →
    (I.accepts (.object (n.members I.draft true)) v = true ↔
      v = .null ∨ I.accepts (.object (n.members I.draft false)) v = true)
  | any k, h => by
    have honly : I.only? [] = none := Interpretation.only?_eq_none List.not_mem_nil
    unfold members
    refine (or_iff_right_of_imp ?_).symm
    rintro rfl
    rw [Interpretation.accepts_around honly, Interpretation.holds_null h]
    rfl
  | null k, h => by
    have honly : I.only? [typeMember "null" false] = none :=
      Interpretation.only?_eq_none (by decide)
    unfold members
    refine (or_iff_right_of_imp ?_).symm
    rintro rfl
    rw [Interpretation.accepts_around honly, Interpretation.holds_null h]
    rfl
  | scalar primitive k, _ => by
    unfold members
    exact accepts_typeMember_iff k List.not_mem_nil rfl
  | enum values k, _ => accepts_enum_iff values k I.draft
  | array items k, _ => by
    unfold members
    exact accepts_typeMember_iff k (by simp [Association.keys]) rfl
  | object typed allOf properties required additional k, h => by
    unfold members
    dsimp only
    split
    · next htyped =>
      obtain rfl := h htyped
      refine accepts_typeMember_iff k ?_ ?_
      · exact reference_not_mem_keys_object I.draft [] properties required additional
      · exact acceptsMembers_object_null I.draft properties required additional
    · exact accepts_untypedMembers_iff accepts_assertions_around
  | nullable inner, h => by
    have hinner := accepts_orNull_iff inner h
    rw [members, members, hinner, ← or_assoc, or_self]
  | oneOf variants k, _ => by
    unfold members
    exact accepts_untypedMembers_iff accepts_assertions_around
  | nominal _ k, _ => by
    unfold members
    exact accepts_untypedMembers_iff accepts_assertions_around
  | ref target k, _ => by
    unfold members
    refine accepts_untypedMembers_iff ?_
    rw [accepts_around_refMembers, accepts_around_refMembers, Interpretation.holds_assertions]

end Node

/-! ### Built schemas -/

namespace Configuration

/-- Every nullable schema inside a built one, before and after it is linked, accepts null and what
the schema inside it accepts. -/
theorem accepts_nullable_iff (c : Configuration) (t : TypeDescription) (f : TypeName → CanonicalId)
    (n : Node)
    (hpart : .nullable n ∈ (c.build t).parts (fun _ => true) ∨
      .nullable n ∈ ((c.build t).link f).parts fun _ => true)
    (I : Interpretation) (v : Json) :
    I.accepts ((Node.nullable n).render I.draft) v = true ↔
      v = .null ∨ I.accepts (n.render I.draft) v = true := by
  have hadmits : n.AdmitsNull := by
    rcases hpart with hbuilt | hlinked
    · exact (build_sound c t _ hbuilt).nullable n rfl
    · exact (link_build_sound c t f _ hlinked).nullable n rfl
  have hwritten := Node.accepts_orNull_iff (I := I) (v := v) n hadmits
  rw [Node.render, Node.render, Node.members]
  exact hwritten

/-- A type with a property that is true or null. -/
def signedForm : TypeDescription where
  name := .topLevel "" "Form"
  schemaName := "Form"
  kind := .object [{
    name := "signed"
    declaredName := "signed"
    type := .nullable (.scalar .boolean)
    constraints := [.assertTrue]
    itemConstraints := []
    inclusion := .always
    description := none
    deprecated := false
    readOnly := false
    writeOnly := false
    defaultValue := none }] none
  title := none
  description := none
  isRoot := true

/-- The schema of true values. -/
def signedNode : Node := .scalar .boolean { constant := some (.bool true) }

/-- The constant keeps null out of the inner schema, but not out of the nullable one. -/
theorem accepts_signed_iff : .nullable signedNode ∈
      (({} : Configuration).build signedForm).parts (fun _ => true) ∧
    ∀ (I : Interpretation) (v : Json),
      (I.accepts ((Node.nullable signedNode).render I.draft) v = true ↔
        v = .null ∨ v = .bool true) := by
  have hparts : (({} : Configuration).build signedForm).parts (fun _ => true) =
      [({} : Configuration).build signedForm, .nullable signedNode, signedNode] := rfl
  have hpart : .nullable signedNode ∈
      (({} : Configuration).build signedForm).parts (fun _ => true) := by
    rw [hparts]
    simp
  refine ⟨hpart, fun I v => ?_⟩
  have hinner : I.accepts (signedNode.render I.draft) v = true ↔ v = .bool true := by
    have hmembers : signedNode.members I.draft false =
        [("type", .string "boolean"), ("const", .bool true)] := rfl
    have honly : I.only? [("type", .string "boolean"), ("const", .bool true)] = none :=
      Interpretation.only?_eq_none (by decide)
    rw [Node.render, hmembers, Interpretation.accepts, honly]
    cases v with
    | bool value =>
      cases value with
      | true => exact iff_of_true rfl rfl
      | false =>
        refine iff_of_false Bool.false_ne_true ?_
        rintro ⟨⟩
    | null | number | string | array | object =>
      refine iff_of_false Bool.false_ne_true ?_
      rintro ⟨⟩
  rw [accepts_nullable_iff {} signedForm (fun _ => ⟨""⟩) signedNode (Or.inl hpart) I v, hinner]

end Configuration

end SchemaCompiler
