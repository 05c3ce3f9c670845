import SchemaCompiler.Proofs.Schema.Structure

/-!
# References of rendered schemas

`Json.schemaRefs` collects the references of a JSON schema: the texts under `$ref` wherever a schema
stands.  A schema stands under the keywords that hold schemas, in the lists and maps of schemas, and
in the definitions section of a draft if it is asked for (`Json.placeOf`).  What stands elsewhere,
such as a default or a constant, is data, whatever it looks like.

However a node is written, its references are its targets in order (`Node.schemaRefs_members`):
inside `allOf` where the draft needs it, and in the first branch of `anyOf` where null is accepted
too.
-/

namespace SchemaCompiler

/-! ### Where schemas stand -/

namespace Json

/-- What the value of a keyword holds. -/
inductive Place where
  /-- The target of a reference. -/
  | reference
  | schema
  /-- A list of schemas. -/
  | schemas
  /-- Schemas under names. -/
  | namedSchemas
  /-- Anything but schemas. -/
  | data
deriving DecidableEq

/-- What stands under a keyword; the definitions section of a draft counts if it is asked for. -/
def placeOf (sections : Option Draft) (key : String) : Place :=
  if sections.map Draft.definitionsKeyword = some key then .namedSchemas
  else
    match key with
    | "$ref" => .reference
    | "items" | "additionalProperties" => .schema
    | "allOf" | "anyOf" | "oneOf" => .schemas
    | "properties" => .namedSchemas
    | _ => .data

variable (sections : Option Draft)

mutual

/-- The references of a schema, in the order of the text. -/
def schemaRefs : Json → List String
  | object members => schemaRefsOfMembers members
  | null | bool _ | number _ | string _ | array _ => []

/-- The references in the members of a schema. -/
def schemaRefsOfMembers : List (String × Json) → List String
  | [] => []
  | (key, value) :: rest =>
    (match placeOf sections key with
      | .reference => value.asString?.toList
      | .schema => schemaRefs value
      | .schemas => schemaRefsOfList value
      | .namedSchemas => schemaRefsOfMap value
      | .data => []) ++ schemaRefsOfMembers rest

/-- The references in a value that holds a list of schemas. -/
def schemaRefsOfList : Json → List String
  | array items => schemaRefsOfItems items
  | null | bool _ | number _ | string _ | object _ => []

/-- The references in the schemas of a list. -/
def schemaRefsOfItems : List Json → List String
  | [] => []
  | item :: rest => schemaRefs item ++ schemaRefsOfItems rest

/-- The references in a value that holds schemas under names. -/
def schemaRefsOfMap : Json → List String
  | object members => schemaRefsOfValues members
  | null | bool _ | number _ | string _ | array _ => []

/-- The references in schemas under names. -/
def schemaRefsOfValues : List (String × Json) → List String
  | [] => []
  | (_, value) :: rest => schemaRefs value ++ schemaRefsOfValues rest

end

variable {sections}

/-- References of members one after another. -/
lemma schemaRefsOfMembers_append (first second : List (String × Json)) :
    schemaRefsOfMembers sections (first ++ second) =
      schemaRefsOfMembers sections first ++ schemaRefsOfMembers sections second := by
  induction first with
  | nil => rfl
  | cons member first ih =>
    rw [List.cons_append, schemaRefsOfMembers, schemaRefsOfMembers, ih, List.append_assoc]

/-- There is no reference under a key of data. -/
lemma schemaRefsOfMembers_cons_of_data {key : String} (hkey : placeOf sections key = .data)
    (value : Json) (rest : List (String × Json)) :
    schemaRefsOfMembers sections ((key, value) :: rest) = schemaRefsOfMembers sections rest := by
  rw [schemaRefsOfMembers, hkey, List.nil_append]

/-- There is no reference in data. -/
lemma schemaRefsOfMembers_of_data {members : List (String × Json)}
    (h : ∀ key ∈ Association.keys members, placeOf sections key = .data) :
    schemaRefsOfMembers sections members = [] := by
  induction members with
  | nil => rfl
  | cons member members ih =>
    obtain ⟨hkey, hrest⟩ := List.forall_mem_cons.mp h
    rw [schemaRefsOfMembers_cons_of_data hkey, ih hrest]

/-- The references in schemas under names are those of the schemas. -/
lemma schemaRefsOfValues_eq (members : List (String × Json)) :
    schemaRefsOfValues sections members = members.flatMap fun m => schemaRefs sections m.2 := by
  induction members with
  | nil => rfl
  | cons member members ih => rw [schemaRefsOfValues, ih, List.flatMap_cons]

end Json

/-! ### Annotations and assertions -/

namespace Keywords

section References

variable {sections : Option Draft}

/-- No schema stands under annotations and assertions. -/
lemma placeOf_eq_data (sections : Option Draft) :
    ∀ key ∈ headKeys ++ bodyKeys ++ tailKeys, Json.placeOf sections key = .data := by
  cases sections with
  | none => decide
  | some draft => cases draft <;> decide

/-- There is no reference before the structure of a node. -/
@[simp] lemma schemaRefsOfMembers_head (k : Keywords) :
    Json.schemaRefsOfMembers sections k.head = [] := by
  refine Json.schemaRefsOfMembers_of_data fun key hkey => placeOf_eq_data sections key ?_
  exact List.mem_append_left _ (List.mem_append_left _ ((keys_head k).subset hkey))

/-- There is no reference in the assertions after the structure of a node. -/
@[simp] lemma schemaRefsOfMembers_body (k : Keywords) :
    Json.schemaRefsOfMembers sections k.body = [] := by
  refine Json.schemaRefsOfMembers_of_data fun key hkey => placeOf_eq_data sections key ?_
  exact List.mem_append_left _ (List.mem_append_right _ ((keys_body k).subset hkey))

/-- There is no reference in the annotations at the end. -/
@[simp] lemma schemaRefsOfMembers_tail (k : Keywords) :
    Json.schemaRefsOfMembers sections k.tail = [] := by
  refine Json.schemaRefsOfMembers_of_data fun key hkey => placeOf_eq_data sections key ?_
  exact List.mem_append_right _ ((keys_tail k).subset hkey)

/-- The keywords around a structure add no references. -/
@[simp] lemma schemaRefsOfMembers_around (k : Keywords) (members : List Member) :
    Json.schemaRefsOfMembers sections (k.around members) =
      Json.schemaRefsOfMembers sections members := by
  simp [around, Json.schemaRefsOfMembers_append]

end References

end Keywords

/-! ### Written nodes -/

namespace Node

open Keywords (Member)
open Json (schemaRefs schemaRefsOfMembers schemaRefsOfItems schemaRefsOfValues placeOf)

variable {sections : Option Draft} {draft : Draft} {k : Keywords} {orNull : Bool}
  {refs : List String}

/-- What a keyword of the structure holds, whether or not a definitions section counts. -/
lemma placeOf_structure (sections : Option Draft) :
    placeOf sections "$ref" = .reference ∧
      (∀ key ∈ ["items", "additionalProperties"], placeOf sections key = .schema) ∧
      (∀ key ∈ ["allOf", "anyOf", "oneOf"], placeOf sections key = .schemas) ∧
      placeOf sections "properties" = .namedSchemas ∧
      ∀ key ∈ ["type", "enum", "required"], placeOf sections key = .data := by
  cases sections with
  | none => decide
  | some draft => cases draft <;> decide

/-- A type is no schema. -/
@[simp] lemma placeOf_typeMember (type : String) :
    placeOf sections (typeMember type orNull).1 = .data :=
  (placeOf_structure sections).2.2.2.2 "type" (by decide)

/-- A schema or null refers to what the schema refers to. -/
lemma schemaRefsOfMembers_orNullMembers {structural : Keywords → List Member}
    (h : ∀ k, schemaRefsOfMembers sections (structural k) = refs) :
    schemaRefsOfMembers sections (orNullMembers k structural) = refs := by
  have hanyOf : placeOf sections "anyOf" = .schemas :=
    (placeOf_structure sections).2.2.1 _ (by decide)
  simp [orNullMembers, Json.schemaRefsOfMembers_append, schemaRefsOfMembers, hanyOf,
    Json.schemaRefsOfList, schemaRefsOfItems, schemaRefs, h]

/-- A schema with a plain type refers to what its structure refers to. -/
lemma schemaRefsOfMembers_typedMembers {structural : Bool → List Member}
    (h : ∀ orNull, schemaRefsOfMembers sections (structural orNull) = refs) :
    schemaRefsOfMembers sections (typedMembers orNull k structural) = refs := by
  unfold typedMembers
  split
  · exact schemaRefsOfMembers_orNullMembers fun _ => h false
  · rw [Keywords.schemaRefsOfMembers_around, h]

/-- A schema without a plain type refers to what its structure refers to. -/
lemma schemaRefsOfMembers_untypedMembers {structural : Keywords → List Member}
    (h : ∀ k, schemaRefsOfMembers sections (structural k) = refs) :
    schemaRefsOfMembers sections (untypedMembers orNull k structural) = refs := by
  unfold untypedMembers
  split
  · exact schemaRefsOfMembers_orNullMembers h
  · rw [Keywords.schemaRefsOfMembers_around, h]

/-- A reference is found in either spelling. -/
lemma schemaRefsOfMembers_refMembers (target : CanonicalId) :
    schemaRefsOfMembers sections (refMembers draft target k) = [target.uri] := by
  have href : placeOf sections "$ref" = .reference := (placeOf_structure sections).1
  have hallOf : placeOf sections "allOf" = .schemas :=
    (placeOf_structure sections).2.2.1 _ (by decide)
  unfold refMembers
  split <;>
    simp [schemaRefsOfMembers, href, hallOf, Json.schemaRefsOfList, schemaRefsOfItems, schemaRefs,
      Json.asString?]

/-- A list of schemas has the references of its elements, also where an empty one is left out. -/
lemma schemaRefsOfMembers_arrayMember {key : String} (hkey : placeOf sections key = .schemas)
    (items : List Json) :
    schemaRefsOfMembers sections (arrayMember key items) = schemaRefsOfItems sections items := by
  unfold arrayMember
  split
  · next hempty =>
    rw [List.isEmpty_iff.mp hempty]
    rfl
  · simp [schemaRefsOfMembers, hkey, Json.schemaRefsOfList]

/-- A map of schemas has the references of its values, also where an empty one is left out. -/
lemma schemaRefsOfMembers_objectMember {key : String} (hkey : placeOf sections key = .namedSchemas)
    (members : List Member) :
    schemaRefsOfMembers sections (objectMember key members) =
      schemaRefsOfValues sections members := by
  unfold objectMember
  split
  · next hempty =>
    rw [List.isEmpty_iff.mp hempty]
    rfl
  · simp [schemaRefsOfMembers, hkey, Json.schemaRefsOfMap]

/-- There is no reference in a list of data. -/
lemma schemaRefsOfMembers_arrayMember_of_data {key : String} (hkey : placeOf sections key = .data)
    (items : List Json) : schemaRefsOfMembers sections (arrayMember key items) = [] := by
  unfold arrayMember
  split
  · rfl
  · simp [schemaRefsOfMembers, hkey]

mutual

/-- The references of a written node are its targets, in order, in either draft and with or without
null. -/
theorem schemaRefs_members (sections : Option Draft) (draft : Draft) (orNull : Bool) :
    ∀ n : Node, schemaRefsOfMembers sections (n.members draft orNull) = n.targets.map (·.uri)
  | any k => by simp [members, targets, schemaRefsOfMembers]
  | null k => by simp [members, targets, schemaRefsOfMembers]
  | scalar primitive k => by
    refine schemaRefsOfMembers_typedMembers fun orNull => ?_
    simp [targets, schemaRefsOfMembers]
  | enum values k => by
    have henum : placeOf sections "enum" = .data :=
      (placeOf_structure sections).2.2.2.2 _ (by decide)
    refine schemaRefsOfMembers_typedMembers fun orNull => ?_
    simp [targets, schemaRefsOfMembers, henum]
  | array items k => by
    have hitems : placeOf sections "items" = .schema :=
      (placeOf_structure sections).2.1 _ (by decide)
    have hinner := schemaRefs_members sections draft false items
    unfold members
    refine schemaRefsOfMembers_typedMembers fun orNull => ?_
    simp [targets, schemaRefsOfMembers, hitems, schemaRefs, hinner]
  | object typed allOf properties required additional k => by
    obtain ⟨-, hschema, hschemas, hproperties, hdata⟩ := placeOf_structure sections
    have hparts : schemaRefsOfMembers sections
        (arrayMember "allOf" (renderList draft allOf) ++
          objectMember "properties" (renderProperties draft properties) ++
          arrayMember "required" (required.map .string) ++
          renderOption "additionalProperties" draft additional) =
        (targets (object typed allOf properties required additional k)).map (·.uri) := by
      rw [Json.schemaRefsOfMembers_append, Json.schemaRefsOfMembers_append,
        Json.schemaRefsOfMembers_append, schemaRefsOfMembers_arrayMember (hschemas _ (by decide)),
        schemaRefsOfMembers_objectMember hproperties,
        schemaRefsOfMembers_arrayMember_of_data (hdata _ (by decide)),
        schemaRefsOfItems_renderList sections draft allOf,
        schemaRefsOfValues_renderProperties sections draft properties,
        schemaRefsOfMembers_renderOption sections draft (hschema _ (by decide)) additional]
      simp [targets]
    unfold members
    dsimp only
    split
    · refine schemaRefsOfMembers_typedMembers fun orNull => ?_
      rw [schemaRefsOfMembers, placeOf_typeMember, hparts]
      rfl
    · exact schemaRefsOfMembers_untypedMembers fun _ => hparts
  | nullable inner => by
    rw [members, targets]
    exact schemaRefs_members sections draft true inner
  | oneOf variants k => by
    have honeOf : placeOf sections "oneOf" = .schemas :=
      (placeOf_structure sections).2.2.1 _ (by decide)
    have hvariants := schemaRefsOfItems_renderList sections draft variants
    unfold members
    refine schemaRefsOfMembers_untypedMembers fun _ => ?_
    simp [targets, schemaRefsOfMembers, honeOf, Json.schemaRefsOfList, hvariants]
  | nominal _ k => schemaRefsOfMembers_untypedMembers fun _ => rfl
  | ref target k =>
    schemaRefsOfMembers_untypedMembers fun _ => schemaRefsOfMembers_refMembers target

/-- The references of written nodes are their targets. -/
theorem schemaRefsOfItems_renderList (sections : Option Draft) (draft : Draft) :
    ∀ ns : List Node,
      schemaRefsOfItems sections (renderList draft ns) = (targetsOfList ns).map (·.uri)
  | [] => rfl
  | n :: ns => by
    simp [renderList, schemaRefsOfItems, targetsOfList, schemaRefs,
      schemaRefs_members sections draft false n, schemaRefsOfItems_renderList sections draft ns]

/-- The references of written properties are their targets. -/
theorem schemaRefsOfValues_renderProperties (sections : Option Draft) (draft : Draft) :
    ∀ ps : List (String × Node),
      schemaRefsOfValues sections (renderProperties draft ps) = (targetsOfProperties ps).map (·.uri)
  | [] => rfl
  | (_, n) :: ps => by
    simp [renderProperties, schemaRefsOfValues, targetsOfProperties, schemaRefs,
      schemaRefs_members sections draft false n,
      schemaRefsOfValues_renderProperties sections draft ps]

/-- The references of a written node, if there is one, are its targets. -/
theorem schemaRefsOfMembers_renderOption (sections : Option Draft) (draft : Draft) {key : String}
    (hkey : placeOf sections key = .schema) :
    ∀ n? : Option Node,
      schemaRefsOfMembers sections (renderOption key draft n?) = (targetsOfOption n?).map (·.uri)
  | none => rfl
  | some n => by
    simp [renderOption, schemaRefsOfMembers, targetsOfOption, hkey, schemaRefs,
      schemaRefs_members sections draft false n]

end

end Node

end SchemaCompiler
