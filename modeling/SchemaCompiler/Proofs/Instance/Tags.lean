import SchemaCompiler.Proofs.Instance.Nullable
import SchemaCompiler.Proofs.TypeGraph.Exploration

/-!
# Tags of unions

A union offers an entry for each of its variants, and accepts what exactly one of the entries
accepts (`Configuration.accepts_union_iff`).  An entry accepts those values of the variant's type
that have the tag under the discriminator (`Configuration.accepts_entry_iff`), so entries are told
apart by their tags.  Tags are declared or are the simple names of types, which types of different
packages share, and no description looks at two of them (`TypeSource.IsVariant`).

The main statement is `Configuration.union_tags`: no value is ever accepted by two entries exactly
if the tags are distinct, and a variant that is listed twice matches nothing.
-/

namespace SchemaCompiler

/-! ### Values and keys -/

/-- Only the text itself is the same as a text. -/
lemma Json.same_string_iff {text : String} {v : Json} :
    (Json.string text).same v = true ↔ v = .string text := by
  cases v with
  | string other => simp only [Json.same, beq_iff_eq, Json.string.injEq, eq_comm (a := text)]
  | null | bool | number | array | object => exact iff_of_false Bool.false_ne_true nofun

/-- A key is there exactly if something is found under it. -/
lemma Association.contains_eq_isSome {α : Type} {key : String} {entries : List (String × α)} :
    contains key entries = (entries.lookup key).isSome := by
  induction entries with
  | nil => rfl
  | cons entry entries ih =>
    obtain ⟨first, value⟩ := entry
    have hcons : contains key ((first, value) :: entries) =
      (first == key || contains key entries) := rfl
    rw [hcons, List.lookup_cons, ih, BEq.comm]
    cases key == first <;> rfl

/-- The values of the type of objects are the objects. -/
lemma Json.hasType_object_iff {v : Json} :
    v.hasType "object" = true ↔ ∃ members, v = .object members := by
  cases v with
  | object members => exact iff_of_true rfl ⟨members, rfl⟩
  | null | bool | number | string | array => exact iff_of_false Bool.false_ne_true nofun

/-! ### Single keywords -/

namespace Interpretation

open Keywords (Member)

variable {I : Interpretation} {names : List String} {members : List Member} {v : Json}

/-- The schema of a tag accepts the tag alone. -/
lemma accepts_tag_iff {draft : Draft} {tag : String} :
    I.accepts ((Node.any { constant := some (.string tag) }).render draft) v = true ↔
      v = .string tag := by
  have honly : I.only? [] = none := only?_eq_none List.not_mem_nil
  have hmembers : I.acceptsMembers (declared []) [] v = true := rfl
  have hholds : I.holds { constant := some (.string tag) } v = (Json.string tag).same v := by
    have hbody : ({ constant := some (.string tag) } : Keywords).body =
        [("const", .string tag)] := by simp [Keywords.body, Keywords.member, Keywords.flag]
    rw [holds, hbody]
    exact Bool.and_true _
  rw [Node.render, Node.members, accepts_around honly, hmembers, hholds, Bool.true_and,
    Json.same_string_iff]

/-- A reference without keywords accepts what the definition does. -/
lemma accepts_ref_iff {target : CanonicalId} :
    I.accepts ((Node.ref target {}).render I.draft) v = I.definition target.uri v := by
  have hholds : I.holds {} v = true := holds_annotations {} v
  rw [Node.render, Node.members, Node.untypedMembers, if_neg Bool.false_ne_true,
    Node.accepts_around_refMembers, hholds, Bool.and_true]

/-- A single schema to fulfil accepts what it accepts. -/
lemma acceptsMembers_allOf (schema : Json) :
    I.acceptsMembers names [("allOf", .array [schema])] v = I.accepts schema v := by
  have hplace : Json.placeOf none "allOf" = .schemas := rfl
  simp only [acceptsMembers, hplace, acceptsList, if_pos, acceptances, List.length_singleton,
    Bool.and_true]
  cases I.accepts schema v <;> rfl

/-- The schema of a property accepts a value if it accepts what stands under the name, if
anything. -/
lemma acceptsMembers_properties (name : String) (schema : Json) :
    I.acceptsMembers names [("properties", .object [(name, schema)])] v =
      ((v.asObject?.getD []).lookup name).all fun x => I.accepts schema x := by
  have hplace : Json.placeOf none "properties" = .namedSchemas := rfl
  simp only [acceptsMembers, hplace, acceptsMap, acceptsProperties, Bool.and_true]

/-- A required name accepts the objects with a member of the name. -/
lemma acceptsMembers_required (name : String) :
    I.acceptsMembers names [("required", .array [.string name])] v =
      v.asObject?.all fun members => Association.contains name members := by
  have hdata : Json.placeOf none "required" = .data := rfl
  have hasserts : I.asserts "required" (.array [.string name]) v =
      v.asObject?.all fun members => (Association.contains name members && true) := rfl
  rw [acceptsMembers_cons_of_data hdata, hasserts, acceptsMembers, Bool.and_true]
  simp only [Bool.and_true]

end Interpretation

/-! ### Tags of variants -/

namespace TypeSource

variable {source : TypeSource}

/-- The variants of a described union are those of its declaration, one by one. -/
lemma Describes.forall₂_isVariant {t : TypeDescription} (h : source.Describes t)
    {discriminator : String} {variants : List UnionVariant}
    (ht : t.kind = .union discriminator variants) :
    ∃ declared, source.unit.lookup? t.name.qualified = some declared ∧
      List.Forall₂ (source.IsVariant t.name) declared.declaration.variants variants := by
  obtain ⟨declared, hlookup, hname, hdescribe⟩ := h
  have hdescribed := describesKind_of_eq_ok (describe_eq_ok hdescribe).2.2
  rw [ht] at hdescribed
  cases hdescribed with
  | union _ _ hmapped =>
    rw [hname] at hmapped
    exact ⟨declared, hlookup,
      (forall₂_of_mapM_eq_ok hmapped).imp fun _ _ => isVariant_of_describeVariant⟩

end TypeSource

/-! ### Entries -/

namespace Configuration

variable {I : Interpretation} {f : TypeName → CanonicalId} {discriminator : String}
  {w : UnionVariant} {v : Json}

/-- What a linked union offers for a variant. -/
def entry (f : TypeName → CanonicalId) (discriminator : String) (w : UnionVariant) : Node :=
  (variantNode discriminator w).link f

/-- An entry accepts what the definition of the type accepts, but of objects only those that have
the tag under the discriminator. -/
theorem accepts_entry_iff :
    I.accepts ((entry f discriminator w).render I.draft) v = true ↔
      I.definition (f w.target).uri v = true ∧
        ∀ members, v = .object members → members.lookup discriminator = some (.string w.tag) := by
  let target : Node := .ref (f w.target) {}
  let tag : Node := .any { constant := some (.string w.tag) }
  let allOf : List Keywords.Member := [("allOf", .array [target.render I.draft])]
  let properties : List Keywords.Member :=
    [("properties", .object [(discriminator, tag.render I.draft)])]
  let required : List Keywords.Member := [("required", .array [.string discriminator])]
  have hentry : (entry f discriminator w).render I.draft =
      Json.object (({} : Keywords).around (allOf ++ properties ++ required)) := rfl
  have honly : I.only? (allOf ++ properties ++ required) = none :=
    Interpretation.only?_eq_none (by simp [allOf, properties, required, Association.keys])
  have hholds : I.holds {} v = true := Interpretation.holds_annotations {} v
  rw [hentry, Interpretation.accepts_around honly, hholds, Bool.and_true,
    Interpretation.acceptsMembers_append, Interpretation.acceptsMembers_append,
    Interpretation.acceptsMembers_allOf, Interpretation.acceptsMembers_properties,
    Interpretation.acceptsMembers_required, Interpretation.accepts_ref_iff, Bool.and_assoc,
    Bool.and_eq_true]
  refine and_congr_right fun _ => ?_
  cases v with
  | object members =>
    have hsame : (∀ others, Json.object members = .object others →
        others.lookup discriminator = some (.string w.tag)) ↔
          members.lookup discriminator = some (.string w.tag) :=
      ⟨fun h => h members rfl, fun h others hothers => Json.object.inj hothers ▸ h⟩
    have hmembers : (Json.object members).asObject? = some members := rfl
    rw [hsame, hmembers, Option.getD_some, Option.all_some, Association.contains_eq_isSome]
    cases members.lookup discriminator with
    | none => simp
    | some x => simpa using Interpretation.accepts_tag_iff
  | null | bool | number | string | array =>
    refine iff_of_true rfl ?_
    rintro members ⟨⟩

/-- The number of entries of a union that accept a value. -/
def acceptingEntries (I : Interpretation) (f : TypeName → CanonicalId) (discriminator : String)
    (variants : List UnionVariant) (v : Json) : Nat :=
  variants.countP fun w => I.accepts ((entry f discriminator w).render I.draft) v

/-- The entries of a union are those of its variants. -/
lemma acceptances_entries (variants : List UnionVariant) :
    I.acceptances
        (Node.renderList I.draft (Node.linkList f (variants.map (variantNode discriminator)))) v =
      acceptingEntries I f discriminator variants v := by
  induction variants with
  | nil => rfl
  | cons w variants ih =>
    rw [acceptingEntries, List.countP_cons, ← acceptingEntries, ← ih]
    have hcons : I.acceptances (Node.renderList I.draft
        (Node.linkList f ((w :: variants).map (variantNode discriminator)))) v =
        (I.accepts ((entry f discriminator w).render I.draft) v).toNat +
          I.acceptances (Node.renderList I.draft
            (Node.linkList f (variants.map (variantNode discriminator)))) v := rfl
    rw [hcons, Nat.add_comm]
    cases I.accepts ((entry f discriminator w).render I.draft) v <;> rfl

/-- A union accepts the values that exactly one of its entries accepts. -/
theorem accepts_union_iff (c : Configuration) {t : TypeDescription}
    {variants : List UnionVariant} (ht : t.kind = .union discriminator variants) :
    I.accepts (((c.build t).link f).render I.draft) v = true ↔
      acceptingEntries I f discriminator variants v = 1 := by
  let entries : List Json :=
    Node.renderList I.draft (Node.linkList f (variants.map (variantNode discriminator)))
  have hunion : ((c.build t).link f).render I.draft =
      .object ((c.typeAnnotations t).around [("oneOf", .array entries)]) := by
    simp only [build, ht]
    rfl
  have honly : I.only? [("oneOf", .array entries)] = none :=
    Interpretation.only?_eq_none (by simp [Association.keys])
  have hplace : Json.placeOf none "oneOf" = .schemas := rfl
  have hannotations : I.holds (c.typeAnnotations t) v = true :=
    Interpretation.holds_annotations (c.typeAnnotations t) v
  rw [hunion, Interpretation.accepts_around honly, hannotations, Bool.and_true,
    Interpretation.acceptsMembers, hplace]
  dsimp only
  rw [Interpretation.acceptsMembers, Bool.and_true, Interpretation.acceptsList,
    if_neg (by decide), if_neg (by decide), acceptances_entries, beq_iff_eq]

/-- The schema of an object type accepts objects alone. -/
theorem exists_object_of_accepts (c : Configuration) {t : TypeDescription}
    (ht : t.kind.isObject = true)
    (h : I.accepts (((c.build t).link f).render I.draft) v = true) :
    ∃ members, v = .object members := by
  unfold build at h
  cases hkind : t.kind with
  | object properties additional =>
    simp only [hkind, Node.link, Node.render, Node.members, Node.typedMembers, Bool.false_and,
      if_true, Bool.false_eq_true, if_false] at h
    have honly : ∀ others, "$ref" ∉ Association.keys others →
        I.only? (Node.typeMember "object" false :: others) = none := by
      intro others hothers
      refine Interpretation.only?_eq_none ?_
      simpa [Association.keys, Node.typeMember] using hothers
    rw [Interpretation.accepts_around (honly _ (Node.reference_not_mem_keys_object _ _ _ _ _)),
      Bool.and_eq_true, Node.acceptsMembers_typeMember] at h
    obtain ⟨⟨htype | ⟨hfalse, -⟩, -⟩, -⟩ := h
    · exact Json.hasType_object_iff.mp htype
    · cases hfalse
  | enum values | union discriminator variants =>
    rw [hkind] at ht
    cases ht

/-! ### Distinct tags -/

/-- The definitions of the types of variants accept objects alone. -/
def DefinesObjects (I : Interpretation) (f : TypeName → CanonicalId)
    (variants : List UnionVariant) : Prop :=
  ∀ w ∈ variants, ∀ v, I.definition (f w.target).uri v = true → ∃ members, v = .object members

variable {variants : List UnionVariant}

/-- Entries that accept one value have the same tag. -/
lemma tag_eq_of_accepts (h : DefinesObjects I f variants) {w w' : UnionVariant}
    (hw : w ∈ variants)
    (haccepts : I.accepts ((entry f discriminator w).render I.draft) v = true)
    (haccepts' : I.accepts ((entry f discriminator w').render I.draft) v = true) :
    w.tag = w'.tag := by
  obtain ⟨hdefinition, htag⟩ := accepts_entry_iff.mp haccepts
  obtain ⟨members, hv⟩ := h w hw v hdefinition
  have hlookup := htag members hv
  rw [(accepts_entry_iff.mp haccepts').2 members hv] at hlookup
  exact (Json.string.inj (Option.some.inj hlookup)).symm

/-- Where tags are distinct, at most one entry accepts a value. -/
lemma acceptingEntries_le_one (h : DefinesObjects I f variants)
    (hnodup : (variants.map (·.tag)).Nodup) :
    acceptingEntries I f discriminator variants v ≤ 1 := by
  induction variants with
  | nil => exact Nat.zero_le 1
  | cons w variants ih =>
    obtain ⟨hw, hrest⟩ := List.nodup_cons.mp hnodup
    have hone := ih (fun other hother => h other (List.mem_cons_of_mem _ hother)) hrest
    rw [acceptingEntries, List.countP_cons]
    split
    · next haccepts =>
      -- Another entry that accepts the value would have the tag of this one.
      have hnone : variants.countP
          (fun w => I.accepts ((entry f discriminator w).render I.draft) v) = 0 := by
        refine List.countP_eq_zero.mpr fun other hother haccepts' => hw ?_
        have htag := tag_eq_of_accepts h List.mem_cons_self haccepts haccepts'
        exact List.mem_map.mpr ⟨other, hother, htag.symm⟩
      rw [hnone]
    · exact hone

/-- An object with a tag under the discriminator. -/
def tagged (discriminator tag : String) : Json := .object [(discriminator, .string tag)]

/-- An interpretation in which every definition accepts the objects. -/
def everyObject : Interpretation where
  draft := .draft202012
  isMatch := fun _ _ => true
  definition := fun _ v => v.hasType "object"

/-- If definitions accept every object, an object with a tag is accepted once for every variant with
the tag. -/
lemma acceptingEntries_tagged (tag : String) :
    acceptingEntries everyObject f discriminator variants (tagged discriminator tag) =
      (variants.map (·.tag)).count tag := by
  rw [acceptingEntries, List.count, List.countP_map]
  refine List.countP_congr fun w hw => ?_
  have hlookup : [(discriminator, Json.string tag)].lookup discriminator =
      some (.string tag) := by simp
  change everyObject.accepts ((entry f discriminator w).render everyObject.draft) _ = true ↔ _
  rw [accepts_entry_iff, Function.comp_apply, beq_iff_eq]
  constructor
  · rintro ⟨-, htag⟩
    have hsame := htag _ rfl
    rw [hlookup] at hsame
    exact (Json.string.inj (Option.some.inj hsame)).symm
  · rintro rfl
    refine ⟨rfl, ?_⟩
    rintro members ⟨⟩
    exact hlookup

/-- Tags are distinct exactly if no value is ever accepted by two entries. -/
theorem nodup_tags_iff :
    (variants.map (·.tag)).Nodup ↔ ∀ I : Interpretation, DefinesObjects I f variants →
      ∀ v, acceptingEntries I f discriminator variants v ≤ 1 := by
  constructor
  · exact fun hnodup I hobjects v => acceptingEntries_le_one hobjects hnodup
  · intro h
    rw [List.nodup_iff_count_le_one]
    intro tag
    have hobjects : DefinesObjects everyObject f variants :=
      fun w _ v hv => Json.hasType_object_iff.mp hv
    have hone := h everyObject hobjects (tagged discriminator tag)
    rwa [acceptingEntries_tagged] at hone

/-- Every value that the entry of a repeated variant accepts is accepted by two entries. -/
lemma two_le_acceptingEntries {w : UnionVariant} (hw : 2 ≤ variants.count w)
    (haccepts : I.accepts ((entry f discriminator w).render I.draft) v = true) :
    2 ≤ acceptingEntries I f discriminator variants v := by
  refine hw.trans (List.countP_mono_left fun other _ hsame => ?_)
  obtain rfl : other = w := by simpa using hsame
  exact haccepts

/-- The variants of an extracted union are those of its declaration, and lead to types whose schemas
accept objects alone.  The union accepts what exactly one of its entries accepts.  With definitions
that accept objects alone, at most one entry accepts any value exactly if the tags are distinct, and
nothing of a variant that is listed twice is accepted by the union. -/
theorem union_tags (c : Configuration) {source : TypeSource} {root : TypeName}
    (hroot : source.unit.Declares root) {graph : TypeGraph}
    (hgraph : (source.extract root).result = .ok graph) {t : TypeDescription}
    (ht : t ∈ graph.types) (hkind : t.kind = .union discriminator variants)
    (f : TypeName → CanonicalId) :
    (∃ declared, source.unit.lookup? t.name.qualified = some declared ∧
      List.Forall₂ (source.IsVariant t.name) declared.declaration.variants variants) ∧
    (∀ w ∈ variants, ∃ u, graph.get? w.target = some u ∧
      ∀ (I : Interpretation) (v : Json),
        I.accepts (((c.build u).link f).render I.draft) v = true →
          ∃ members, v = .object members) ∧
    (∀ (I : Interpretation) (v : Json),
      I.accepts (((c.build t).link f).render I.draft) v = true ↔
        acceptingEntries I f discriminator variants v = 1) ∧
    ((variants.map (·.tag)).Nodup ↔
      ∀ I : Interpretation, DefinesObjects I f variants →
        ∀ v, acceptingEntries I f discriminator variants v ≤ 1) ∧
    ∀ w, 2 ≤ variants.count w → ∀ (I : Interpretation) (v : Json),
      I.accepts ((entry f discriminator w).render I.draft) v = true →
        I.accepts (((c.build t).link f).render I.draft) v = false := by
  have hextracted := TypeSource.extracted_of_extract hroot hgraph
  have hunion : ∀ (I : Interpretation) (v : Json),
      I.accepts (((c.build t).link f).render I.draft) v = true ↔
        acceptingEntries I f discriminator variants v = 1 := fun _ _ => accepts_union_iff c hkind
  refine ⟨(hextracted.described t ht).forall₂_isVariant hkind, fun w hw => ?_, hunion,
    nodup_tags_iff, fun w hw I v haccepts => ?_⟩
  · obtain ⟨u, hu, hobject⟩ := hextracted.variants t ht discriminator variants hkind w hw
    exact ⟨u, hu, fun _ _ => exists_object_of_accepts c hobject⟩
  · have htwo := two_le_acceptingEntries hw haccepts
    rw [Bool.eq_false_iff, Ne, hunion]
    omega

/-- A bird is an owl of the day or an owl of the night. -/
def owls : TypeSource where
  allowAny := false
  unit :=
    { types :=
      [ { name := .topLevel "" "Bird"
          declaration :=
            { name := "Bird"
              kind := .union
              variants := [{ target := "day.Owl" }, { target := "night.Owl" }] }
          origin := "" },
        { name := .topLevel "day" "Owl"
          declaration := { name := "Owl" }
          origin := "" },
        { name := .topLevel "night" "Owl"
          declaration := { name := "Owl" }
          origin := "" } ] }

/-- Both owls have the tag of their simple name. -/
def owlVariants : List UnionVariant :=
  [⟨"Owl", .topLevel "day" "Owl"⟩, ⟨"Owl", .topLevel "night" "Owl"⟩]

/-- There is an object that both entries for owls accept and the union does not. -/
theorem union_tags_owls : owls.unit.Declares (.topLevel "" "Bird") ∧
    ∃ graph, (owls.extract (.topLevel "" "Bird")).result = .ok graph ∧
      ∃ t ∈ graph.types, t.kind = .union "type" owlVariants ∧
        ∀ f, ∃ (I : Interpretation) (v : Json), DefinesObjects I f owlVariants ∧
          2 ≤ acceptingEntries I f "type" owlVariants v ∧
          I.accepts (((({} : Configuration).build t).link f).render I.draft) v = false := by
  have hroot : owls.unit.Declares (.topLevel "" "Bird") := ⟨_, rfl, rfl⟩
  obtain ⟨graph, hgraph, t, ht, hkind⟩ :
      ∃ graph, (owls.extract (.topLevel "" "Bird")).result = .ok graph ∧
        ∃ t ∈ graph.types, t.kind = .union "type" owlVariants :=
    ⟨_, rfl, _, List.mem_cons_self, rfl⟩
  refine ⟨hroot, graph, hgraph, t, ht, hkind, fun f => ?_⟩
  obtain ⟨-, -, hunion, hnodup, -⟩ := union_tags {} hroot hgraph ht hkind f
  have hrepeated : ¬(owlVariants.map (·.tag)).Nodup := by decide
  rw [hnodup] at hrepeated
  push Not at hrepeated
  obtain ⟨I, hobjects, v, htwo⟩ := hrepeated
  refine ⟨I, v, hobjects, htwo, ?_⟩
  rw [Bool.eq_false_iff, Ne, hunion]
  omega

end Configuration

end SchemaCompiler
