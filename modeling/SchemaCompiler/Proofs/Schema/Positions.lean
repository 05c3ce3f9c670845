import SchemaCompiler.Proofs.Schema.References

/-!
# Positions of schemas

`Json.SchemaAt` lists the schemas inside a JSON schema, each with the keys and indices that lead to
it.  They stand where `Json.placeOf` says: under a keyword, in a list or under a name.  A default or
a constant is never entered.

What holds of a schema and passes to the schemas right inside it holds of all of them
(`Json.SchemaAt.preserves`).  What passes the other way holds of the schema itself
(`Json.of_contents`).
-/

namespace SchemaCompiler.Json

/-- The schemas that the value of a keyword holds. -/
def Place.contents : Place → Json → List Json
  | schema, s => [s]
  | schemas, array items => items
  | namedSchemas, object entries => entries.map (·.2)
  | _, _ => []

variable (sections : Option Draft)

/-- A schema that stands in the members of another one, with the keys that lead to it. -/
inductive Holds (members : List (String × Json)) : List String → Json → Prop
  /-- A schema under a keyword. -/
  | schema {key : String} {s : Json} (hplace : placeOf sections key = .schema)
      (hmem : (key, s) ∈ members) : Holds members [key] s
  /-- A schema in the list under a keyword. -/
  | item {key : String} {items : List Json} {i : Nat} {s : Json}
      (hplace : placeOf sections key = .schemas) (hmem : (key, array items) ∈ members)
      (hitem : items[i]? = some s) : Holds members [key, toString i] s
  /-- A schema under a name. -/
  | named {key name : String} {entries : List (String × Json)} {s : Json}
      (hplace : placeOf sections key = .namedSchemas) (hmem : (key, object entries) ∈ members)
      (hentry : (name, s) ∈ entries) : Holds members [key, name] s

/-- A schema inside another one, or this one itself, with the keys that lead to it. -/
inductive SchemaAt : Json → List String → Json → Prop
  | here (s : Json) : SchemaAt s [] s
  | inside {members : List (String × Json)} {step path : List String} {inner s : Json}
      (hstep : Holds sections members step inner) (hinner : SchemaAt inner path s) :
      SchemaAt (object members) (step ++ path) s

variable {sections}

/-- A schema that stands in members is held by one of them, with whose key its place begins. -/
lemma Holds.exists_contents {members : List (String × Json)} {step : List String} {s : Json}
    (h : Holds sections members step s) :
    ∃ member ∈ members, step.head? = some member.1 ∧
      s ∈ (placeOf sections member.1).contents member.2 := by
  cases h with
  | schema hplace hmem => exact ⟨_, hmem, rfl, by simp [hplace, Place.contents]⟩
  | item hplace hmem hitem =>
    exact ⟨_, hmem, rfl, by simpa [hplace, Place.contents] using List.mem_of_getElem? hitem⟩
  | named hplace hmem hentry =>
    exact ⟨_, hmem, rfl, by simpa [hplace, Place.contents] using ⟨_, hentry⟩⟩

/-- A schema whose place begins with the key of named schemas stands under one of the names. -/
lemma Holds.exists_entry {members : List (String × Json)} {step : List String} {s : Json}
    {key : String} (h : Holds sections members step s) (hhead : step.head? = some key)
    (hplace : placeOf sections key = .namedSchemas) :
    ∃ entries name, (key, object entries) ∈ members ∧ (name, s) ∈ entries ∧ step = [key, name] := by
  cases h with
  | schema hplace' =>
    obtain rfl := Option.some.inj hhead
    rw [hplace'] at hplace
    cases hplace
  | item hplace' =>
    obtain rfl := Option.some.inj hhead
    rw [hplace'] at hplace
    cases hplace
  | named _ hmem hentry =>
    obtain rfl := Option.some.inj hhead
    exact ⟨_, _, hmem, hentry, rfl⟩

/-- What one of the members holds stands in them. -/
lemma exists_holds {members : List (String × Json)} {member : String × Json} {s : Json}
    (hmem : member ∈ members) (hs : s ∈ (placeOf sections member.1).contents member.2) :
    ∃ step, Holds sections members step s := by
  obtain ⟨key, value⟩ := member
  cases hplace : placeOf sections key with
  | schema =>
    rw [hplace, Place.contents, List.mem_singleton] at hs
    exact ⟨_, .schema hplace (hs ▸ hmem)⟩
  | schemas =>
    rw [hplace] at hs
    cases value with
    | array items =>
      obtain ⟨i, hi⟩ := List.mem_iff_getElem?.mp hs
      exact ⟨_, .item hplace hmem hi⟩
    | null | bool | number | string | object => cases hs
  | namedSchemas =>
    rw [hplace] at hs
    cases value with
    | object entries =>
      obtain ⟨entry, hentry, rfl⟩ := List.mem_map.mp hs
      exact ⟨_, .named hplace hmem hentry⟩
    | null | bool | number | string | array => cases hs
  | reference | data =>
    rw [hplace] at hs
    cases hs

/-- A schema is no larger than the value that holds it. -/
lemma Place.sizeOf_le {place : Place} {value s : Json} (h : s ∈ place.contents value) :
    sizeOf s ≤ sizeOf value := by
  cases place with
  | schema => exact Nat.le_of_eq (congrArg sizeOf (List.mem_singleton.mp h))
  | schemas =>
    cases value with
    | array items =>
      have hlt : sizeOf s < sizeOf items := List.sizeOf_lt_of_mem h
      simp only [Json.array.sizeOf_spec]
      omega
    | null | bool | number | string | object => cases h
  | namedSchemas =>
    cases value with
    | object entries =>
      obtain ⟨⟨name, entry⟩, hentry, rfl⟩ := List.mem_map.mp h
      have hlt := List.sizeOf_lt_of_mem hentry
      simp only [Json.object.sizeOf_spec, Prod.mk.sizeOf_spec] at hlt ⊢
      omega
    | null | bool | number | string | array => cases h
  | reference | data => cases h

/-- A schema in a member is smaller than the schema of the members. -/
lemma sizeOf_contents_lt {members : List (String × Json)} {member : String × Json} {s : Json}
    (hmem : member ∈ members) (hs : s ∈ (placeOf sections member.1).contents member.2) :
    sizeOf s < sizeOf (object members) := by
  obtain ⟨key, value⟩ := member
  have hmember := List.sizeOf_lt_of_mem hmem
  have hvalue : sizeOf s ≤ sizeOf value := Place.sizeOf_le hs
  simp only [Json.object.sizeOf_spec, Prod.mk.sizeOf_spec] at hmember ⊢
  omega

/-- What holds of a schema and passes to the schemas in its members holds of all schemas inside. -/
theorem SchemaAt.preserves {P : Json → Prop} {v s : Json} {path : List String}
    (hstep : ∀ members, P (object members) → ∀ member ∈ members,
      ∀ inner ∈ (placeOf sections member.1).contents member.2, P inner)
    (hv : P v) (h : SchemaAt sections v path s) : P s := by
  induction h with
  | here s => exact hv
  | inside hinner _ ih =>
    obtain ⟨member, hmem, -, hcontents⟩ := hinner.exists_contents
    exact ih (hstep _ hv member hmem _ hcontents)

/-- A reference in a schema of a list is a reference in the list. -/
lemma mem_schemaRefsOfItems {items : List Json} {s : Json} {text : String} (hs : s ∈ items)
    (htext : text ∈ schemaRefs sections s) : text ∈ schemaRefsOfItems sections items := by
  induction hs with
  | head items => exact List.mem_append_left _ htext
  | tail item _ ih => exact List.mem_append_right _ ih

/-- A reference in a schema that a member holds is a reference in the members. -/
lemma mem_schemaRefsOfMembers {members : List (String × Json)} {member : String × Json} {s : Json}
    {text : String} (hmem : member ∈ members)
    (hs : s ∈ (placeOf sections member.1).contents member.2)
    (htext : text ∈ schemaRefs sections s) : text ∈ schemaRefsOfMembers sections members := by
  obtain ⟨before, after, rfl⟩ := List.append_of_mem hmem
  obtain ⟨key, value⟩ := member
  rw [schemaRefsOfMembers_append, schemaRefsOfMembers]
  refine List.mem_append_right _ (List.mem_append_left _ ?_)
  cases hplace : placeOf sections key <;> rw [hplace] at hs
  case schema =>
    obtain rfl := List.mem_singleton.mp hs
    exact htext
  case schemas =>
    cases value with
    | array items => exact mem_schemaRefsOfItems hs htext
    | null | bool | number | string | object => cases hs
  case namedSchemas =>
    cases value with
    | object entries =>
      obtain ⟨entry, hentry, rfl⟩ := List.mem_map.mp hs
      dsimp only
      rw [schemaRefsOfMap, schemaRefsOfValues_eq]
      exact List.mem_flatMap.mpr ⟨entry, hentry, htext⟩
    | null | bool | number | string | array => cases hs
  all_goals cases hs

/-- What stands under the keyword of references is a reference. -/
lemma mem_schemaRefs_of_mem {members : List (String × Json)} {text : String}
    (href : placeOf sections "$ref" = .reference) (hmem : ("$ref", string text) ∈ members) :
    text ∈ schemaRefs sections (object members) := by
  obtain ⟨before, after, rfl⟩ := List.append_of_mem hmem
  rw [schemaRefs, schemaRefsOfMembers_append, schemaRefsOfMembers, href]
  exact List.mem_append_right _ (List.mem_append_left _ (Option.mem_toList.mpr rfl))

/-- A reference of a schema inside another one is a reference of that one. -/
lemma SchemaAt.mem_schemaRefs {v s : Json} {path : List String} {text : String}
    (h : SchemaAt sections v path s) (htext : text ∈ schemaRefs sections s) :
    text ∈ schemaRefs sections v := by
  induction h with
  | here s => exact htext
  | inside hstep _ ih =>
    obtain ⟨member, hmem, -, hs⟩ := hstep.exists_contents
    exact mem_schemaRefsOfMembers hmem hs (ih htext)

/-- What holds of a schema as soon as it holds of the schemas in its members holds of every schema
in which all schemas are objects. -/
theorem of_contents {P : Json → Prop} {Q : List (String × Json) → Prop}
    (hstep : ∀ members, Q members →
      (∀ member ∈ members, ∀ inner ∈ (placeOf sections member.1).contents member.2, P inner) →
        P (object members)) (v : Json)
    (hv : ∀ path s, SchemaAt sections v path s → ∃ members, s = object members ∧ Q members) :
    P v := by
  obtain ⟨members, rfl, hmembers⟩ := hv [] v (.here v)
  refine hstep members hmembers fun member hmem inner hinner => ?_
  obtain ⟨step, hholds⟩ := exists_holds hmem hinner
  have hlt := sizeOf_contents_lt hmem hinner
  exact of_contents hstep inner fun path s hat => hv _ s (.inside hholds hat)
termination_by sizeOf v
decreasing_by
  subst_vars
  exact hlt

end SchemaCompiler.Json
