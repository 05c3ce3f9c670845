import SchemaCompiler.Proofs.Schema.Positions

/-!
# Schemas in both drafts

The two drafts write a schema alike, except that the older one ignores what stands next to `$ref`.
`Json.wrapRefs` gives every reference that something stands next to an `allOf` of its own, in its
place.  It goes through the schemas inside a schema and leaves data as it is.

The schema of a node in the older draft is its schema in the newer one with the references wrapped
(`Node.members_draft07`), so nothing ever stands next to a reference there
(`Json.alone_of_wrapRefs`).  Both are put together in `Node.render_draft07`.
-/

namespace SchemaCompiler

open Association (keys)

namespace Json

open Keywords (Member)

/-! ### Wrapping references -/

/-- Whether something other than a reference stands among members. -/
def hasSiblings (members : List Member) : Bool := members.any (·.1 != "$ref")

mutual

/-- The schema with an `allOf` around each reference that something stands next to. -/
def wrapRefs : Json → Json
  | object members => object (wrapMembers (hasSiblings members) members)
  | null => null
  | bool b => bool b
  | number n => number n
  | string s => string s
  | array items => array items

/-- The members of a schema with the references inside wrapped; `shared` says whether its own
reference is. -/
def wrapMembers (shared : Bool) : List Member → List Member
  | [] => []
  | (key, value) :: rest =>
    (match placeOf none key with
      | .reference =>
        if shared then ("allOf", array [object [(key, value)]]) else (key, value)
      | .schema => (key, wrapRefs value)
      | .schemas => (key, wrapList value)
      | .namedSchemas => (key, wrapMap value)
      | .data => (key, value)) :: wrapMembers shared rest

/-- A value that holds a list of schemas, with the references inside wrapped. -/
def wrapList : Json → Json
  | array items => array (wrapItems items)
  | null => null
  | bool b => bool b
  | number n => number n
  | string s => string s
  | object members => object members

/-- Schemas with the references inside wrapped. -/
def wrapItems : List Json → List Json
  | [] => []
  | item :: rest => wrapRefs item :: wrapItems rest

/-- A value that holds schemas under names, with the references inside wrapped. -/
def wrapMap : Json → Json
  | object members => object (wrapValues members)
  | null => null
  | bool b => bool b
  | number n => number n
  | string s => string s
  | array items => array items

/-- Schemas under names with the references inside wrapped. -/
def wrapValues : List Member → List Member
  | [] => []
  | (name, value) :: rest => (name, wrapRefs value) :: wrapValues rest

end

/-- One member with the references inside wrapped. -/
def wrapMember (shared : Bool) (member : Member) : Member :=
  match placeOf none member.1 with
  | .reference => if shared then ("allOf", array [object [member]]) else member
  | .schema => (member.1, wrapRefs member.2)
  | .schemas => (member.1, wrapList member.2)
  | .namedSchemas => (member.1, wrapMap member.2)
  | .data => member

/-- Members are wrapped one by one. -/
lemma wrapMembers_eq (shared : Bool) (members : List Member) :
    wrapMembers shared members = members.map (wrapMember shared) := by
  induction members with
  | nil => rfl
  | cons member members ih =>
    rw [wrapMembers, ih, List.map_cons]
    cases hplace : placeOf none member.1 <;> simp [wrapMember, hplace]

/-- The schemas of a list are wrapped one by one. -/
lemma wrapItems_eq (items : List Json) : wrapItems items = items.map wrapRefs := by
  induction items with
  | nil => rfl
  | cons item items ih => rw [wrapItems, ih, List.map_cons]

/-- Schemas under names are wrapped one by one. -/
lemma wrapValues_eq (members : List Member) :
    wrapValues members = members.map fun member => (member.1, wrapRefs member.2) := by
  induction members with
  | nil => rfl
  | cons member members ih =>
    rw [wrapValues, ih, List.map_cons]

/-- The members of a schema after the references in it are wrapped. -/
def wrapped (members : List Member) : List Member :=
  members.map (wrapMember (hasSiblings members))

/-- The references of an object are wrapped in its members. -/
lemma wrapRefs_object (members : List Member) :
    wrapRefs (object members) = object (wrapped members) := by
  rw [wrapRefs, wrapMembers_eq]
  rfl

/-- Data stays as it is. -/
lemma map_wrapMember_of_data {members : List Member}
    (h : ∀ key ∈ keys members, placeOf none key = .data) (shared : Bool) :
    members.map (wrapMember shared) = members := by
  have hsame : ∀ member ∈ members, wrapMember shared member = member := by
    intro member hmember
    rw [wrapMember, h member.1 (List.mem_map_of_mem hmember)]
  rw [List.map_congr_left hsame, List.map_id']

/-- Something stands next to a reference among members one after another. -/
lemma hasSiblings_append (first second : List Member) :
    hasSiblings (first ++ second) = (hasSiblings first || hasSiblings second) :=
  List.any_append

/-- Data stands next to a reference, if there is any. -/
lemma hasSiblings_of_data {members : List Member}
    (h : ∀ key ∈ keys members, placeOf none key = .data) :
    hasSiblings members = !members.isEmpty := by
  cases members with
  | nil => rfl
  | cons member members =>
    have hne : member.1 ≠ "$ref" := by
      intro heq
      have hplace := h member.1 List.mem_cons_self
      rw [heq] at hplace
      cases hplace
    simp [hasSiblings, hne]

/-! ### References alone -/

/-- Only the keyword of references holds one. -/
lemma eq_of_placeOf_eq_reference {key : String} (h : placeOf none key = .reference) :
    key = "$ref" := by
  unfold placeOf at h
  split at h
  · cases h
  · split at h
    · rfl
    all_goals cases h

/-- A schema that came from one by wrapping references, or a reference that stands alone. -/
def Wrapped (s : Json) : Prop :=
  (∃ v, s = wrapRefs v) ∨ ∃ target, s = object [("$ref", target)]

/-- The schemas in a member whose references are wrapped came from it by wrapping. -/
lemma wrapped_of_mem_contents {shared : Bool} {member : Member} {s : Json}
    (h : s ∈ (placeOf none (wrapMember shared member).1).contents (wrapMember shared member).2) :
    Wrapped s := by
  obtain ⟨key, value⟩ := member
  cases hplace : placeOf none key with
  | reference =>
    rw [eq_of_placeOf_eq_reference hplace] at h
    cases shared with
    | true => exact Or.inr ⟨value, List.mem_singleton.mp h⟩
    | false => cases h
  | schema =>
    simp only [wrapMember, hplace, Place.contents] at h
    exact Or.inl ⟨value, List.mem_singleton.mp h⟩
  | schemas =>
    simp only [wrapMember, hplace] at h
    cases value with
    | array items =>
      rw [wrapList, wrapItems_eq, Place.contents] at h
      obtain ⟨item, -, rfl⟩ := List.mem_map.mp h
      exact Or.inl ⟨item, rfl⟩
    | null | bool | number | string | object => cases h
  | namedSchemas =>
    simp only [wrapMember, hplace] at h
    cases value with
    | object entries =>
      rw [wrapMap, wrapValues_eq, Place.contents, List.map_map] at h
      obtain ⟨entry, -, rfl⟩ := List.mem_map.mp h
      exact Or.inl ⟨entry.2, rfl⟩
    | null | bool | number | string | array => cases h
  | data =>
    simp only [wrapMember, hplace] at h
    cases h

/-- The members of a schema whose references are wrapped. -/
lemma exists_of_wrapRefs_eq {v : Json} {members : List Member} (h : wrapRefs v = object members) :
    ∃ before, members = wrapped before := by
  cases v with
  | object before =>
    rw [wrapRefs_object] at h
    exact ⟨before, (Json.object.inj h).symm⟩
  | null | bool | number | string | array => cases h

/-- What stands in a schema with its references wrapped came from it by wrapping. -/
lemma Wrapped.inside {members : List Member} (h : Wrapped (object members)) :
    ∀ member ∈ members, ∀ s ∈ (placeOf none member.1).contents member.2, Wrapped s := by
  rcases h with ⟨v, hv⟩ | ⟨target, htarget⟩
  · obtain ⟨before, rfl⟩ := exists_of_wrapRefs_eq hv.symm
    intro member hmember s hs
    obtain ⟨old, -, rfl⟩ := List.mem_map.mp hmember
    exact wrapped_of_mem_contents hs
  · obtain rfl := Json.object.inj htarget
    intro member hmember s hs
    rw [List.mem_singleton.mp hmember] at hs
    cases hs

/-- A keyword stays the same, except for that of a reference that is wrapped. -/
lemma fst_wrapMember (shared : Bool) (member : Member) :
    (wrapMember shared member).1 =
      if shared ∧ member.1 = "$ref" then "allOf" else member.1 := by
  obtain ⟨key, value⟩ := member
  by_cases hkey : key = "$ref"
  · subst hkey
    cases shared <;> rfl
  · cases hplace : placeOf none key with
    | reference => exact absurd (eq_of_placeOf_eq_reference hplace) hkey
    | schema | schemas | namedSchemas | data => simp [wrapMember, hplace, hkey]

/-- A reference in a schema whose references are wrapped stands alone. -/
theorem Wrapped.alone {members : List Member} (h : Wrapped (object members))
    (href : "$ref" ∈ keys members) : ∀ key ∈ keys members, key = "$ref" := by
  rcases h with ⟨v, hv⟩ | ⟨target, htarget⟩
  · obtain ⟨before, rfl⟩ := exists_of_wrapRefs_eq hv.symm
    rw [wrapped] at href ⊢
    cases hshared : hasSiblings before with
    | true =>
      -- Every reference is wrapped, so none is left.
      obtain ⟨member, hmember, hkey⟩ := List.mem_map.mp href
      obtain ⟨old, -, rfl⟩ := List.mem_map.mp hmember
      rw [hshared, fst_wrapMember] at hkey
      split at hkey
      · exact absurd hkey (by decide)
      · next hkept => exact absurd ⟨rfl, hkey⟩ hkept
    | false =>
      have hall : ∀ member ∈ before, member.1 = "$ref" := by simpa [hasSiblings] using hshared
      simpa [keys, fst_wrapMember] using hall
  · obtain rfl := Json.object.inj htarget
    exact List.forall_mem_singleton.mpr rfl

end Json

/-! ### The two drafts of a node -/

namespace Keywords

variable {k : Keywords} {shared : Bool}

/-- Keywords that surround the structure of a node are data. -/
lemma placeOf_around (k : Keywords) :
    (∀ key ∈ keys k.head, Json.placeOf .none key = .data) ∧
      (∀ key ∈ keys k.body, Json.placeOf .none key = .data) ∧
      ∀ key ∈ keys k.tail, Json.placeOf .none key = .data := by
  refine ⟨fun key hkey => ?_, fun key hkey => ?_, fun key hkey => ?_⟩ <;>
    refine placeOf_eq_data .none key ?_
  · exact List.mem_append_left _ (List.mem_append_left _ ((keys_head k).subset hkey))
  · exact List.mem_append_left _ (List.mem_append_right _ ((keys_body k).subset hkey))
  · exact List.mem_append_right _ ((keys_tail k).subset hkey)

/-- Only references in the structure of a node are wrapped. -/
lemma wrapped_around {structural structural' : List Member}
    (h : structural.map (Json.wrapMember (Json.hasSiblings (k.around structural))) = structural') :
    Json.wrapped (k.around structural) = k.around structural' := by
  obtain ⟨hhead, hbody, htail⟩ := k.placeOf_around
  rw [Json.wrapped]
  generalize Json.hasSiblings (k.around structural) = shared at h
  simp only [around, List.map_append, Json.map_wrapMember_of_data hhead,
    Json.map_wrapMember_of_data hbody, Json.map_wrapMember_of_data htail, h]

/-- Something stands next to a reference if its node has keywords. -/
lemma hasSiblings_around (k : Keywords) (value : Json) :
    Json.hasSiblings (k.around [("$ref", value)]) = !k.isEmpty := by
  obtain ⟨hhead, hbody, htail⟩ := k.placeOf_around
  have hnone : Json.hasSiblings [("$ref", value)] = false := rfl
  simp only [around, Json.hasSiblings_append, Json.hasSiblings_of_data hhead,
    Json.hasSiblings_of_data hbody, Json.hasSiblings_of_data htail, hnone, isEmpty,
    Bool.or_false, Bool.not_and]

end Keywords

namespace Node

open Keywords (Member)
open Json (wrapMember wrapped wrapRefs)

variable {k : Keywords} {orNull : Bool}

/-- The references of a schema or null are those of the schema. -/
lemma wrapped_orNullMembers {structural structural' : Keywords → List Member}
    (h : ∀ k : Keywords, wrapped (k.around (structural k)) = k.around (structural' k)) :
    wrapped (orNullMembers k structural) = orNullMembers k structural' := by
  have habsent : wrapRefs (.object [typeMember "null" false]) = .object [typeMember "null" false] :=
    rfl
  have hanyOf : ∀ (shared : Bool) (items : List Json),
      wrapMember shared ("anyOf", .array items) = ("anyOf", .array (items.map wrapRefs)) := by
    intro shared items
    rw [← Json.wrapItems_eq]
    rfl
  obtain ⟨hhead, -, htail⟩ := k.annotations.placeOf_around
  rw [wrapped]
  generalize Json.hasSiblings (orNullMembers k structural) = shared
  simp only [orNullMembers, List.map_append, Json.map_wrapMember_of_data hhead,
    Json.map_wrapMember_of_data htail, List.map_cons, List.map_nil, hanyOf, Json.wrapRefs_object, h,
    habsent]

/-- The references of a schema with a plain type are those of its structure. -/
lemma wrapped_typedMembers {structural structural' : Bool → List Member}
    (h : ∀ orNull shared, (structural orNull).map (wrapMember shared) = structural' orNull) :
    wrapped (typedMembers orNull k structural) = typedMembers orNull k structural' := by
  unfold typedMembers
  split
  · exact wrapped_orNullMembers fun k => Keywords.wrapped_around (h false _)
  · exact Keywords.wrapped_around (h orNull _)

/-- The references of a schema without a plain type are those of its structure. -/
lemma wrapped_untypedMembers {structural structural' : Keywords → List Member}
    (h : ∀ k : Keywords, wrapped (k.around (structural k)) = k.around (structural' k)) :
    wrapped (untypedMembers orNull k structural) = untypedMembers orNull k structural' := by
  unfold untypedMembers
  split
  · exact wrapped_orNullMembers h
  · exact h k

/-- A reference that something stands next to is wrapped in the older draft. -/
lemma wrapped_around_refMembers (target : CanonicalId) (k : Keywords) :
    wrapped (k.around (refMembers .draft202012 target k)) =
      k.around (refMembers .draft07 target k) := by
  have hnewer : refMembers .draft202012 target k = [("$ref", .string target.uri)] := by
    rw [refMembers, if_pos (by simp [Draft.refAllowsSiblings])]
  refine Keywords.wrapped_around ?_
  rw [hnewer, k.hasSiblings_around]
  cases hempty : k.isEmpty <;> simp [refMembers, hempty, Draft.refAllowsSiblings] <;> rfl

/-- A list of schemas is wrapped, also where an empty one is left out. -/
lemma map_wrapMember_arrayMember {key : String} (hkey : Json.placeOf none key = .schemas)
    (items : List Json) (shared : Bool) :
    (arrayMember key items).map (wrapMember shared) = arrayMember key (items.map wrapRefs) := by
  cases items with
  | nil => rfl
  | cons item items =>
    have hmember : wrapMember shared (key, .array (item :: items)) =
        (key, .array ((item :: items).map wrapRefs)) := by
      rw [← Json.wrapItems_eq, wrapMember, hkey]
      rfl
    exact congrArg (fun member => [member]) hmember

/-- A map of schemas is wrapped, also where an empty one is left out. -/
lemma map_wrapMember_objectMember {key : String} (hkey : Json.placeOf none key = .namedSchemas)
    (entries : List Member) (shared : Bool) :
    (objectMember key entries).map (wrapMember shared) =
      objectMember key (Json.wrapValues entries) := by
  cases entries with
  | nil => rfl
  | cons entry entries =>
    have hmember : wrapMember shared (key, .object (entry :: entries)) =
        (key, .object (Json.wrapValues (entry :: entries))) := by
      rw [wrapMember, hkey]
      rfl
    exact congrArg (fun member => [member]) hmember

/-- The names of required properties are data. -/
lemma map_wrapMember_required (names : List Json) (shared : Bool) :
    (arrayMember "required" names).map (wrapMember shared) = arrayMember "required" names := by
  refine Json.map_wrapMember_of_data (fun key hkey => ?_) shared
  rw [List.mem_singleton.mp ((keys_arrayMember "required" names).subset hkey)]
  rfl

mutual

/-- A node has the members in the older draft that it has in the newer one, with the references
wrapped. -/
theorem wrapped_members : ∀ (n : Node) (orNull : Bool),
    wrapped (n.members .draft202012 orNull) = n.members .draft07 orNull
  | any k, _ => by
    unfold members
    exact Keywords.wrapped_around rfl
  | null k, _ => by
    unfold members
    exact Keywords.wrapped_around rfl
  | scalar primitive k, _ => by
    unfold members
    exact wrapped_typedMembers fun _ _ => rfl
  | enum values k, _ => by
    unfold members
    exact wrapped_typedMembers fun _ _ => rfl
  | array items k, _ => by
    have hitems := wrapped_members items false
    unfold members
    refine wrapped_typedMembers fun orNull shared => ?_
    rw [← hitems, ← Json.wrapRefs_object]
    rfl
  | object typed allOf properties required additional k, _ => by
    have hparts : ∀ shared, (arrayMember "allOf" (renderList .draft202012 allOf) ++
          objectMember "properties" (renderProperties .draft202012 properties) ++
          arrayMember "required" (required.map .string) ++
          renderOption "additionalProperties" .draft202012 additional).map (wrapMember shared) =
        arrayMember "allOf" (renderList .draft07 allOf) ++
          objectMember "properties" (renderProperties .draft07 properties) ++
          arrayMember "required" (required.map .string) ++
          renderOption "additionalProperties" .draft07 additional := by
      intro shared
      rw [List.map_append, List.map_append, List.map_append, map_wrapMember_arrayMember rfl,
        map_wrapMember_objectMember rfl, map_wrapMember_required,
        map_wrapMember_renderOption shared additional, map_wrapRefs_renderList allOf,
        wrapValues_renderProperties properties]
    unfold members
    dsimp only
    split
    · refine wrapped_typedMembers fun orNull shared => ?_
      rw [List.map_cons, hparts shared]
      rfl
    · exact wrapped_untypedMembers fun k => Keywords.wrapped_around (hparts _)
  | nullable inner, _ => by
    unfold members
    exact wrapped_members inner true
  | oneOf variants k, _ => by
    have hvariants := map_wrapRefs_renderList variants
    unfold members
    refine wrapped_untypedMembers fun k => Keywords.wrapped_around ?_
    rw [← hvariants, ← Json.wrapItems_eq]
    rfl
  | nominal _ k, _ => by
    unfold members
    exact wrapped_untypedMembers fun _ => Keywords.wrapped_around rfl
  | ref target k, _ => by
    unfold members
    exact wrapped_untypedMembers (wrapped_around_refMembers target)

/-- The schemas of a list are wrapped one by one. -/
theorem map_wrapRefs_renderList : ∀ ns : List Node,
    (renderList .draft202012 ns).map wrapRefs = renderList .draft07 ns
  | [] => rfl
  | n :: ns => by
    rw [renderList, renderList, List.map_cons, Json.wrapRefs_object, wrapped_members n false,
      map_wrapRefs_renderList ns]

/-- The properties are wrapped one by one. -/
theorem wrapValues_renderProperties : ∀ ps : List (String × Node),
    Json.wrapValues (renderProperties .draft202012 ps) = renderProperties .draft07 ps
  | [] => by rfl
  | (_, n) :: ps => by
    rw [renderProperties, renderProperties, Json.wrapValues, Json.wrapRefs_object,
      wrapped_members n false, wrapValues_renderProperties ps]

/-- An optional schema is wrapped. -/
theorem map_wrapMember_renderOption (shared : Bool) : ∀ n? : Option Node,
    (renderOption "additionalProperties" .draft202012 n?).map (wrapMember shared) =
      renderOption "additionalProperties" .draft07 n?
  | none => rfl
  | some n => by
    have hinner := wrapped_members n false
    rw [renderOption, renderOption, ← hinner, ← Json.wrapRefs_object]
    rfl

end

/-- The schema of a node in the older draft is the one in the newer draft with the references
wrapped.  So wherever a schema stands in it, a reference stands alone. -/
theorem render_draft07 (n : Node) :
    n.render .draft07 = (n.render .draft202012).wrapRefs ∧
      ∀ path members, Json.SchemaAt none (n.render .draft07) path (.object members) →
        "$ref" ∈ keys members → ∀ key ∈ keys members, key = "$ref" := by
  have hrender : n.render .draft07 = (n.render .draft202012).wrapRefs := by
    rw [render, render, Json.wrapRefs_object, wrapped_members n false]
  refine ⟨hrender, fun path members hat => ?_⟩
  have hwrapped : Json.Wrapped (n.render .draft07) := Or.inl ⟨_, hrender⟩
  exact (hat.preserves (fun _ h => h.inside) hwrapped).alone

/-- A titled reference to a label, and one that may be null. -/
example : (object true [] [("a", ref ⟨"Label"⟩ { title := some "A" }),
      ("b", nullable (ref ⟨"Label"⟩ { title := some "B" }))] [] none {}).render .draft07 =
    .object [("type", .string "object"), ("properties", .object [
      ("a", .object [("title", .string "A"),
        ("allOf", .array [.object [("$ref", .string "Label")]])]),
      ("b", .object [("title", .string "B"),
        ("anyOf", .array [.object [("$ref", .string "Label")],
          .object [("type", .string "null")]])])])] := rfl

end Node

end SchemaCompiler
