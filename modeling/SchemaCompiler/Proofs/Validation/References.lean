import SchemaCompiler.Proofs.Schema.Parts
import SchemaCompiler.Proofs.Schema.References
import SchemaCompiler.Validation.References

/-!
# What a search for references finds

`Json.references` searches a JSON value for texts under `$ref` without knowing where schemas stand.
In a written schema it finds the targets of references, but also what looks like a reference inside
a default or a constant (`Keywords.quoted`), and nothing inside a property that is called `$ref`.
`Node.mem_references_members` says so exactly: it finds what the parts that are met without entering
such a property are written with.
-/

namespace SchemaCompiler

/-! ### References of JSON values -/

namespace Json

/-- Members one after another are searched one after another. -/
lemma referencesOfMembers_append (first second : List (String × Json)) :
    referencesOfMembers (first ++ second) =
      referencesOfMembers first ++ referencesOfMembers second := by
  induction first with
  | nil => rfl
  | cons member first ih =>
    rw [List.cons_append, referencesOfMembers, referencesOfMembers, ih, List.append_assoc]

/-- The value of another key than `$ref` is searched. -/
lemma referencesOfMembers_cons_of_ne {key : String} (hkey : key ≠ "$ref") (value : Json)
    (rest : List (String × Json)) :
    referencesOfMembers ((key, value) :: rest) =
      value.references ++ referencesOfMembers rest := by
  rw [referencesOfMembers, if_neg hkey]

/-- There is nothing to find in a list of texts, also if null stands beside them. -/
lemma referencesOfItems_strings (texts : List String) (rest : List Json) :
    referencesOfItems (texts.map string ++ rest) = referencesOfItems rest := by
  induction texts with
  | nil => rfl
  | cons text texts ih =>
    rw [List.map_cons, List.cons_append, referencesOfItems, ih, references, List.nil_append]

end Json

/-! ### References in keywords -/

namespace Keywords

/-- What looks like a reference in the constant and in the default. -/
def quoted (k : Keywords) : List String :=
  (k.constant.toList ++ k.defaultValue.toList).flatMap Json.references

/-- An optional member is searched if it is there. -/
lemma referencesOfMembers_member {key : String} (hkey : key ≠ "$ref") (value : Option Json) :
    Json.referencesOfMembers (member key value) = value.toList.flatMap Json.references := by
  cases value with
  | none => rfl
  | some value =>
    rw [member, Json.referencesOfMembers_cons_of_ne hkey]
    simp [Json.referencesOfMembers]

/-- There is nothing to find in an optional text or number. -/
lemma referencesOfMembers_member_map {α : Type} {key : String} (hkey : key ≠ "$ref")
    {f : α → Json} (hf : ∀ a, (f a).references = []) (value : Option α) :
    Json.referencesOfMembers (member key (value.map f)) = [] := by
  rw [referencesOfMembers_member hkey]
  cases value <;> simp [hf]

/-- There is nothing to find in a flag. -/
lemma referencesOfMembers_flag {key : String} (hkey : key ≠ "$ref") (set : Bool) :
    Json.referencesOfMembers (flag key set) = [] := by
  rw [flag_eq, referencesOfMembers_member hkey]
  cases set <;> rfl

/-- There is nothing to find before the structure of a schema. -/
lemma referencesOfMembers_head (k : Keywords) : Json.referencesOfMembers k.head = [] := by
  have hstring : ∀ s : String, (Json.string s).references = [] := fun _ => rfl
  rw [head, Json.referencesOfMembers_append,
    referencesOfMembers_member_map (by decide) hstring,
    referencesOfMembers_member_map (by decide) hstring, List.nil_append]

/-- Of the assertions after the structure, the constant alone is searched. -/
lemma referencesOfMembers_body (k : Keywords) :
    Json.referencesOfMembers k.body = k.constant.toList.flatMap Json.references := by
  have hstring : ∀ s : String, (Json.string s).references = [] := fun _ => rfl
  have hnat : ∀ n : Nat, (Json.ofNat n).references = [] := fun _ => rfl
  have hnumber : ∀ n : Json.Number, (Json.number n).references = [] := fun _ => rfl
  simp (disch := decide) only [body, Json.referencesOfMembers_append,
    referencesOfMembers_member_map _ hstring, referencesOfMembers_member_map _ hnat,
    referencesOfMembers_member_map _ hnumber, referencesOfMembers_flag, referencesOfMembers_member,
    List.nil_append, List.append_nil]

/-- Of the annotations at the end, the default alone is searched. -/
lemma referencesOfMembers_tail (k : Keywords) :
    Json.referencesOfMembers k.tail = k.defaultValue.toList.flatMap Json.references := by
  simp (disch := decide) only [tail, Json.referencesOfMembers_append, referencesOfMembers_member,
    referencesOfMembers_flag, List.append_nil]

/-- Around a structure the constant and the default are searched. -/
lemma mem_references_around {k : Keywords} {text : String} {structural : List Member} :
    text ∈ Json.referencesOfMembers (k.around structural) ↔
      text ∈ Json.referencesOfMembers structural ∨ text ∈ k.quoted := by
  simp only [around, Json.referencesOfMembers_append, referencesOfMembers_head,
    referencesOfMembers_body, referencesOfMembers_tail, quoted, List.flatMap_append,
    List.nil_append, List.append_assoc, List.mem_append]

end Keywords

/-! ### References in written schemas -/

namespace Node

open Keywords (Member)

/-- Whether the search enters a property. -/
def isSearched (name : String) : Bool := name != "$ref"

/-- What the search finds of a schema besides what it finds in the schemas inside it. -/
def written (n : Node) : List String :=
  n.target?.toList.map (·.uri) ++ n.keywords?.toList.flatMap Keywords.quoted

/-- What the search finds in a schema. -/
def found (n : Node) : List String := (n.parts isSearched).flatMap written

variable {draft : Draft} {k : Keywords} {orNull : Bool} {text : String} {p : Prop}

/-- There is nothing to find in a type. -/
lemma referencesOfMembers_typeMember (type : String) (rest : List Member) :
    Json.referencesOfMembers (typeMember type orNull :: rest) = Json.referencesOfMembers rest := by
  cases orNull <;> rfl

/-- In a schema or null the data of the schema is found in its branch or beside the branches. -/
lemma mem_references_orNullMembers {structural : Keywords → List Member}
    (h : ∀ k, text ∈ Json.referencesOfMembers (structural k) ↔ p) :
    text ∈ Json.referencesOfMembers (orNullMembers k structural) ↔ p ∨ text ∈ k.quoted := by
  have hassertions : k.assertions.quoted = k.constant.toList.flatMap Json.references := by
    simp [Keywords.quoted, Keywords.assertions]
  have hannotations : k.annotations.tail = k.tail := rfl
  have habsent : Json.referencesOfMembers [typeMember "null" false] = [] := rfl
  have hanyOf : "anyOf" ≠ "$ref" := by decide
  simp only [orNullMembers, Json.referencesOfMembers_append, Keywords.referencesOfMembers_head,
    hannotations, Keywords.referencesOfMembers_tail, Json.referencesOfMembers_cons_of_ne hanyOf,
    Json.references, Json.referencesOfItems, habsent, Json.referencesOfMembers.eq_1,
    List.append_nil, List.nil_append, List.mem_append, Keywords.mem_references_around, h,
    hassertions]
  rw [Keywords.quoted, List.flatMap_append, List.mem_append, or_assoc]

/-- In a schema with a plain type the structure and the data are searched. -/
lemma mem_references_typedMembers {structural : Bool → List Member}
    (h : ∀ orNull, text ∈ Json.referencesOfMembers (structural orNull) ↔ p) :
    text ∈ Json.referencesOfMembers (typedMembers orNull k structural) ↔ p ∨ text ∈ k.quoted := by
  unfold typedMembers
  split
  · exact mem_references_orNullMembers fun _ => h false
  · rw [Keywords.mem_references_around, h]

/-- In a schema without a plain type the structure and the data are searched. -/
lemma mem_references_untypedMembers {structural : Keywords → List Member}
    (h : ∀ k, text ∈ Json.referencesOfMembers (structural k) ↔ p) :
    text ∈ Json.referencesOfMembers (untypedMembers orNull k structural) ↔
      p ∨ text ∈ k.quoted := by
  unfold untypedMembers
  split
  · exact mem_references_orNullMembers h
  · rw [Keywords.mem_references_around, h]

/-- A reference is found in either spelling. -/
lemma references_refMembers (target : CanonicalId) :
    Json.referencesOfMembers (refMembers draft target k) = [target.uri] := by
  unfold refMembers
  split <;> rfl

/-- A list is searched, also where an empty one is left out. -/
lemma references_arrayMember {key : String} (hkey : key ≠ "$ref") (items : List Json) :
    Json.referencesOfMembers (arrayMember key items) = Json.referencesOfItems items := by
  unfold arrayMember
  split
  · next hempty =>
    rw [List.isEmpty_iff.mp hempty]
    rfl
  · rw [Json.referencesOfMembers_cons_of_ne hkey]
    exact List.append_nil _

/-- A map is searched, also where an empty one is left out. -/
lemma references_objectMember {key : String} (hkey : key ≠ "$ref") (members : List Member) :
    Json.referencesOfMembers (objectMember key members) = Json.referencesOfMembers members := by
  unfold objectMember
  split
  · next hempty => rw [List.isEmpty_iff.mp hempty]
  · rw [Json.referencesOfMembers_cons_of_ne hkey, Json.references, Json.referencesOfMembers,
      List.append_nil]

mutual

/-- The search finds in a written schema what the parts that it meets are written with, in either
draft and with or without null. -/
theorem mem_references_members (text : String) (draft : Draft) (orNull : Bool) : ∀ n : Node,
    text ∈ Json.referencesOfMembers (n.members draft orNull) ↔ text ∈ n.found
  | any k => by
    simp [members, Keywords.mem_references_around, found, parts, written, target?, keywords?,
      Json.referencesOfMembers]
  | null k => by
    have htype : Json.referencesOfMembers [typeMember "null" false] = [] := rfl
    simp [members, Keywords.mem_references_around, found, parts, written, target?, keywords?, htype]
  | scalar primitive k => by
    have hstructure : ∀ orNull,
        text ∈ Json.referencesOfMembers [typeMember primitive.text orNull] ↔ False := by
      intro orNull
      rw [referencesOfMembers_typeMember]
      exact List.mem_nil_iff text
    rw [members, mem_references_typedMembers hstructure]
    simp [found, parts, written, target?, keywords?]
  | enum values k => by
    have hstructure : ∀ orNull, text ∈ Json.referencesOfMembers [typeMember "string" orNull,
        ("enum", .array (values.map .string ++ if orNull then [.null] else []))] ↔ False := by
      intro orNull
      rw [referencesOfMembers_typeMember, Json.referencesOfMembers_cons_of_ne (by decide),
        Json.references, Json.referencesOfItems_strings]
      cases orNull <;> simp [Json.referencesOfItems, Json.references, Json.referencesOfMembers]
    rw [members, mem_references_typedMembers hstructure]
    simp [found, parts, written, target?, keywords?]
  | array items k => by
    have hstructure : ∀ orNull, text ∈ Json.referencesOfMembers [typeMember "array" orNull,
        ("items", .object (items.members draft false))] ↔ text ∈ items.found := by
      intro orNull
      rw [referencesOfMembers_typeMember, Json.referencesOfMembers_cons_of_ne (by decide),
        Json.references, Json.referencesOfMembers, List.append_nil,
        mem_references_members text draft false items]
    rw [members, mem_references_typedMembers hstructure]
    simp [found, parts, written, target?, keywords?, or_comm]
  | object typed allOf properties required additional k => by
    have hparts : text ∈ Json.referencesOfMembers
        (arrayMember "allOf" (renderList draft allOf) ++
          objectMember "properties" (renderProperties draft properties) ++
          arrayMember "required" (required.map .string) ++
          renderOption "additionalProperties" draft additional) ↔
        text ∈ (partsOfList isSearched allOf ++ partsOfProperties isSearched properties ++
          partsOfOption isSearched additional).flatMap written := by
      have hrequired : Json.referencesOfItems (required.map .string) = [] := by
        have hstrings := Json.referencesOfItems_strings required []
        rwa [List.append_nil] at hstrings
      rw [Json.referencesOfMembers_append, Json.referencesOfMembers_append,
        Json.referencesOfMembers_append, references_arrayMember (by decide),
        references_objectMember (by decide), references_arrayMember (by decide), hrequired,
        List.append_nil, List.flatMap_append, List.flatMap_append, List.mem_append, List.mem_append,
        List.mem_append, List.mem_append, mem_references_renderList text draft allOf,
        mem_references_renderProperties text draft properties,
        mem_references_renderOption text draft (by decide) additional]
    have hfound : text ∈ (object typed allOf properties required additional k).found ↔
        text ∈ (partsOfList isSearched allOf ++ partsOfProperties isSearched properties ++
          partsOfOption isSearched additional).flatMap written ∨ text ∈ k.quoted := by
      rw [found, parts, List.flatMap_cons, List.mem_append, or_comm]
      simp [written, target?, keywords?]
    rw [members, hfound]
    split
    · refine mem_references_typedMembers fun orNull => ?_
      rw [referencesOfMembers_typeMember, hparts]
    · exact mem_references_untypedMembers fun _ => hparts
  | nullable inner => by
    rw [members, mem_references_members text draft true inner]
    simp [found, parts, written, target?, keywords?]
  | oneOf variants k => by
    have hstructure : ∀ _ : Keywords,
        text ∈ Json.referencesOfMembers [("oneOf", .array (renderList draft variants))] ↔
          text ∈ (partsOfList isSearched variants).flatMap written := by
      intro _
      rw [Json.referencesOfMembers_cons_of_ne (by decide), Json.references,
        Json.referencesOfMembers, List.append_nil, mem_references_renderList text draft variants]
    rw [members, mem_references_untypedMembers hstructure]
    simp [found, parts, written, target?, keywords?, or_comm]
  | nominal _ k => by
    have hstructure : ∀ _ : Keywords, text ∈ Json.referencesOfMembers [] ↔ False :=
      fun _ => List.mem_nil_iff text
    rw [members, mem_references_untypedMembers hstructure]
    simp [found, parts, written, target?, keywords?]
  | ref target k => by
    have hstructure : ∀ k : Keywords,
        text ∈ Json.referencesOfMembers (refMembers draft target k) ↔ text = target.uri := by
      intro k
      rw [references_refMembers, List.mem_singleton]
    rw [members, mem_references_untypedMembers hstructure]
    simp [found, parts, written, target?, keywords?]

/-- The search finds in written schemas what their parts are written with. -/
theorem mem_references_renderList (text : String) (draft : Draft) : ∀ ns : List Node,
    text ∈ Json.referencesOfItems (renderList draft ns) ↔
      text ∈ (partsOfList isSearched ns).flatMap written
  | [] => Iff.rfl
  | n :: ns => by
    rw [renderList, Json.referencesOfItems, Json.references, partsOfList, List.flatMap_append,
      List.mem_append, List.mem_append, mem_references_members text draft false n,
      mem_references_renderList text draft ns, found]

/-- The search finds in written properties what the parts of those that it enters are written
with. -/
theorem mem_references_renderProperties (text : String) (draft : Draft) :
    ∀ ps : List (String × Node),
      text ∈ Json.referencesOfMembers (renderProperties draft ps) ↔
        text ∈ (partsOfProperties isSearched ps).flatMap written
  | [] => Iff.rfl
  | (name, n) :: ps => by
    rw [renderProperties, Json.referencesOfMembers, partsOfProperties, List.flatMap_append,
      List.mem_append, List.mem_append, mem_references_renderProperties text draft ps]
    refine or_congr_left ?_
    by_cases hname : name = "$ref"
    · simp [hname, isSearched, Json.asString?]
    · simp only [hname, isSearched, if_false, bne_iff_ne, ne_eq, not_false_eq_true, if_true,
        Json.references]
      exact mem_references_members text draft false n

/-- The search finds in a written schema, if there is one, what its parts are written with. -/
theorem mem_references_renderOption (text : String) (draft : Draft) {key : String}
    (hkey : key ≠ "$ref") : ∀ n? : Option Node,
      text ∈ Json.referencesOfMembers (renderOption key draft n?) ↔
        text ∈ (partsOfOption isSearched n?).flatMap written
  | none => Iff.rfl
  | some n => by
    rw [renderOption, Json.referencesOfMembers_cons_of_ne hkey, Json.references,
      Json.referencesOfMembers, List.append_nil, mem_references_members text draft false n, found,
      partsOfOption]

end

end Node

end SchemaCompiler
