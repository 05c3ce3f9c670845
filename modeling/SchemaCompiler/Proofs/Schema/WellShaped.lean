import SchemaCompiler.Proofs.Schema.Drafts
import SchemaCompiler.Proofs.Schema.Proper
import SchemaCompiler.Validation.MetaSchema

/-!
# Well-shaped schemas

`Json.KeywordFits` says in rules which values the keywords of a schema can have, and
`Json.WellShaped` that all members of a schema keep the rules.  The rules are local: the schemas in
a keyword only have to have some property, which the rules are given.

The members of a proper node are well-shaped in either draft, and the schemas in them are written
proper nodes again (`Node.wellShaped_members`).  This holds also where the writing makes up a schema
of its own: the branches of a schema or null, and a reference inside `allOf`.
-/

namespace SchemaCompiler

open Association (keys)
open Keywords (Member)

/-! ### Rules -/

namespace Json

/-- The keywords with a text. -/
def textKeys : List String :=
  ["$schema", "$id", "$ref", "title", "description", "format", "contentEncoding", "pattern"]

/-- The keywords with a truth value. -/
def flagKeys : List String := ["uniqueItems", "deprecated", "readOnly", "writeOnly"]

/-- The keywords with any value. -/
def dataKeys : List String := ["const", "default"]

variable (draft : Draft) (good : Json → Prop)

/-- What a keyword among the members of a schema can have as its value. -/
inductive KeywordFits (members : List Member) : String → Json → Prop
  | type {name : String} (hname : name ∈ Validation.typeNames) :
    KeywordFits members "type" (.string name)
  | typeOrNull {name : String} (hname : name ∈ Validation.typeNames) (hne : name ≠ "null") :
    KeywordFits members "type" (.ofStrings [name, "null"])
  | enum {values : List Json} (hne : values ≠ []) : KeywordFits members "enum" (.array values)
  /-- Required names are different names of properties. -/
  | required {names : List String} {properties : List Member} (hne : names ≠ [])
      (hdistinct : names.Nodup) (hmem : ("properties", .object properties) ∈ members)
      (hnames : names ⊆ keys properties) : KeywordFits members "required" (.ofStrings names)
  | schema {key : String} {s : Json} (hkey : key ∈ ["items", "additionalProperties"])
      (hs : good s) : KeywordFits members key s
  | schemas {key : String} {items : List Json} (hkey : key ∈ ["allOf", "anyOf", "oneOf"])
      (hne : items ≠ []) (hitems : ∀ s ∈ items, good s) : KeywordFits members key (.array items)
  | named {key : String} {entries : List Member}
      (hkey : key ∈ ["properties", draft.definitionsKeyword]) (hdistinct : (keys entries).Nodup)
      (hentries : ∀ entry ∈ entries, good entry.2) : KeywordFits members key (.object entries)
  | step {n : Number} (hpos : n.IsPositive) : KeywordFits members "multipleOf" (.number n)
  | count (keyword : Keywords.Count) (n : Nat) : KeywordFits members keyword.name (.ofNat n)
  | bound (keyword : Keywords.Bound) (n : Number) : KeywordFits members keyword.name (.number n)
  | text {key : String} (hkey : key ∈ textKeys) (s : String) : KeywordFits members key (.string s)
  | flag {key : String} (hkey : key ∈ flagKeys) (b : Bool) : KeywordFits members key (.bool b)
  | data {key : String} (hkey : key ∈ dataKeys) (value : Json) : KeywordFits members key value

/-- The members of a schema keep the rules. -/
structure WellShaped (members : List Member) : Prop where
  distinct : (keys members).Nodup
  fits : ∀ member ∈ members, KeywordFits draft good members member.1 member.2
  /-- In the older draft nothing stands next to a reference. -/
  alone : draft = .draft07 → "$ref" ∈ keys members → ∀ key ∈ keys members, key = "$ref"

variable {draft good} {members : List Member}

/-- A keyword keeps the rules among more members, and if more schemas are good. -/
lemma KeywordFits.mono {more : List Member} {good' : Json → Prop} {key : String} {value : Json}
    (hmore : members ⊆ more) (hgood : ∀ s, good s → good' s)
    (h : KeywordFits draft good members key value) : KeywordFits draft good' more key value := by
  cases h with
  | type hname => exact .type hname
  | typeOrNull hname hne => exact .typeOrNull hname hne
  | enum hne => exact .enum hne
  | required hne hdistinct hmem hnames => exact .required hne hdistinct (hmore hmem) hnames
  | schema hkey hs => exact .schema hkey (hgood _ hs)
  | schemas hkey hne hitems => exact .schemas hkey hne fun s hs => hgood s (hitems s hs)
  | named hkey hdistinct hentries =>
    exact .named hkey hdistinct fun entry hentry => hgood _ (hentries entry hentry)
  | step hpos => exact .step hpos
  | count keyword n => exact .count keyword n
  | bound keyword n => exact .bound keyword n
  | text hkey s => exact .text hkey s
  | flag hkey b => exact .flag hkey b
  | data hkey value => exact .data hkey value

/-- A keyword that keeps the rules is one member that keeps them. -/
lemma KeywordFits.single {key : String} {value : Json}
    (h : KeywordFits draft good members key value) :
    ∀ m ∈ [(key, value)], KeywordFits draft good members m.1 m.2 :=
  List.forall_mem_singleton.mpr h

/-- The schemas in a keyword that keeps the rules are good. -/
lemma KeywordFits.good_of_mem_contents {key : String} {value s : Json}
    (h : KeywordFits draft good members key value)
    (hs : s ∈ (placeOf (some draft) key).contents value) : good s := by
  obtain ⟨-, hschema, hschemas, hproperties, hdata⟩ := Node.placeOf_structure (some draft)
  have htext : ∀ key ∈ textKeys,
      placeOf (some draft) key = .data ∨ placeOf (some draft) key = .reference := by
    cases draft <;> decide
  have hother : ∀ key ∈ flagKeys ++ dataKeys, placeOf (some draft) key = .data := by
    cases draft <;> decide
  have hbody : ∀ key ∈ Keywords.bodyKeys, placeOf (some draft) key = .data := fun key hkey =>
    Keywords.placeOf_eq_data _ key (List.mem_append_left _ (List.mem_append_right _ hkey))
  have hnone : ∀ {key value}, placeOf (some draft) key = .data →
      s ∉ (placeOf (some draft) key).contents value := by
    intro key value hplace hmem
    rw [hplace] at hmem
    cases hmem
  cases h with
  | schema hkey hs' =>
    rw [hschema key hkey, Place.contents, List.mem_singleton] at hs
    exact hs ▸ hs'
  | schemas hkey _ hitems =>
    rw [hschemas key hkey] at hs
    exact hitems s hs
  | named hkey _ hentries =>
    have hplace : placeOf (some draft) key = .namedSchemas := by
      rcases List.mem_pair.mp hkey with rfl | rfl
      · exact hproperties
      · cases draft <;> rfl
    rw [hplace, Place.contents] at hs
    obtain ⟨entry, hentry, rfl⟩ := List.mem_map.mp hs
    exact hentries entry hentry
  | count keyword => exact absurd hs (hnone (hbody _ (by cases keyword <;> decide)))
  | bound keyword => exact absurd hs (hnone (hbody _ (by cases keyword <;> decide)))
  | step => exact absurd hs (hnone (hbody _ (by decide)))
  | text hkey => rcases htext key hkey with hplace | hplace <;> rw [hplace] at hs <;> cases hs
  | flag hkey => exact absurd hs (hnone (hother key (List.mem_append_left _ hkey)))
  | data hkey => exact absurd hs (hnone (hother key (List.mem_append_right _ hkey)))
  | type | typeOrNull | enum | required => exact absurd hs (hnone (hdata _ (by decide)))

/-- Every schema inside a schema, and the schema itself, is an object that keeps the rules. -/
def AllWellShaped (draft : Draft) (v : Json) : Prop :=
  ∀ path s, SchemaAt (some draft) v path s →
    ∃ members, s = .object members ∧ WellShaped draft (fun s => s.isObject = true) members

/-- An object keeps the rules if every schema inside it does. -/
lemma AllWellShaped.self (h : AllWellShaped draft (.object members)) :
    WellShaped draft (fun s => s.isObject = true) members := by
  obtain ⟨members', hsame, hmembers⟩ := h [] _ (.here _)
  obtain rfl := Json.object.inj hsame
  exact hmembers

/-- What holds of every schema inside an object holds of every schema inside its members. -/
lemma AllWellShaped.inside (h : AllWellShaped draft (.object members)) {member : Member}
    (hmem : member ∈ members) {s : Json}
    (hs : s ∈ (placeOf (some draft) member.1).contents member.2) : AllWellShaped draft s := by
  obtain ⟨step, hholds⟩ := exists_holds hmem hs
  exact fun path inner hat => h _ inner (.inside hholds hat)

end Json

/-! ### Written keywords -/

namespace Keywords

open Json (KeywordFits)

variable {draft : Draft} {good : Json → Prop} {members : List Member} {k : Keywords}

/-- An optional value keeps the rules if it does when it is there. -/
lemma fits_member {key : String} {value : Option Json}
    (h : ∀ v, value = some v → KeywordFits draft good members key v) :
    ∀ m ∈ member key value, KeywordFits draft good members m.1 m.2 := by
  cases value with
  | none => exact fun _ hm => absurd hm List.not_mem_nil
  | some v => exact (h v rfl).single

/-- An optional text keeps the rules. -/
lemma fits_text {key : String} (hkey : key ∈ Json.textKeys) (value : Option String) :
    ∀ m ∈ member key (value.map .string), KeywordFits draft good members m.1 m.2 := by
  refine fits_member fun v hv => ?_
  obtain ⟨text, -, rfl⟩ := Option.map_eq_some_iff.mp hv
  exact .text hkey text

/-- A flag keeps the rules. -/
lemma fits_flag {key : String} (hkey : key ∈ Json.flagKeys) (set : Bool) :
    ∀ m ∈ flag key set, KeywordFits draft good members m.1 m.2 := by
  cases set with
  | false => exact fun _ hm => absurd hm List.not_mem_nil
  | true => exact (KeywordFits.flag hkey true).single

/-- What stands before the structure of a node keeps the rules. -/
lemma fits_head (k : Keywords) : ∀ m ∈ k.head, KeywordFits draft good members m.1 m.2 := by
  simp only [head, List.forall_mem_append]
  exact ⟨fits_text (by decide) _, fits_text (by decide) _⟩

/-- What stands after the structure of a node keeps the rules if its step does. -/
lemma fits_body (hstep : k.StepPositive) :
    ∀ m ∈ k.body, KeywordFits draft good members m.1 m.2 := by
  have hcount : ∀ keyword : Count, ∀ m ∈ member keyword.name ((k.count keyword).map .ofNat),
      KeywordFits draft good members m.1 m.2 := by
    refine fun keyword => fits_member fun v hv => ?_
    obtain ⟨n, -, rfl⟩ := Option.map_eq_some_iff.mp hv
    exact .count keyword n
  have hbound : ∀ keyword : Bound, ∀ m ∈ member keyword.name ((k.bound keyword).map .number),
      KeywordFits draft good members m.1 m.2 := by
    refine fun keyword => fits_member fun v hv => ?_
    obtain ⟨n, -, rfl⟩ := Option.map_eq_some_iff.mp hv
    exact .bound keyword n
  have hmultiple : ∀ m ∈ member "multipleOf" (k.multipleOf.map .number),
      KeywordFits draft good members m.1 m.2 := by
    refine fits_member fun v hv => ?_
    obtain ⟨n, hn, rfl⟩ := Option.map_eq_some_iff.mp hv
    exact .step (hstep n hn)
  simp only [body, List.forall_mem_append, and_assoc]
  exact ⟨fits_text (by decide) _, fits_text (by decide) _,
    fits_member fun v _ => .data (by decide) v, fits_text (by decide) _, hcount .minLength,
    hcount .maxLength, hcount .minItems, hcount .maxItems, fits_flag (by decide) _,
    hbound .minimum, hbound .exclusiveMinimum, hbound .maximum, hbound .exclusiveMaximum,
    hmultiple, hcount .minProperties, hcount .maxProperties⟩

/-- What stands at the end keeps the rules. -/
lemma fits_tail (k : Keywords) : ∀ m ∈ k.tail, KeywordFits draft good members m.1 m.2 := by
  simp only [tail, List.forall_mem_append, and_assoc]
  exact ⟨fits_member fun v _ => .data (by decide) v, fits_flag (by decide) _,
    fits_flag (by decide) _, fits_flag (by decide) _⟩

/-- The keywords around a structure that keeps the rules keep them too. -/
lemma fits_around {structural : List Member} (hstep : k.StepPositive)
    (h : ∀ m ∈ structural, KeywordFits draft good structural m.1 m.2) :
    ∀ m ∈ k.around structural, KeywordFits draft good (k.around structural) m.1 m.2 := by
  have hmore : structural ⊆ k.around structural := fun m hm =>
    List.mem_append_left _ (List.mem_append_left _ (List.mem_append_right _ hm))
  intro m hm
  simp only [around, List.mem_append] at hm
  rcases hm with ((hm | hm) | hm) | hm
  · exact fits_head k m hm
  · exact (h m hm).mono hmore fun _ hs => hs
  · exact fits_body hstep m hm
  · exact fits_tail k m hm

end Keywords

/-! ### Written nodes -/

namespace Node

open Json (KeywordFits WellShaped)

variable {draft : Draft} {good : Json → Prop} {k : Keywords} {orNull : Bool}

/-- A written schema, null accepted or not, of which every part is proper. -/
def Rendered (draft : Draft) (s : Json) : Prop :=
  ∃ (n : Node) (orNull : Bool), s = .object (n.members draft orNull) ∧ n.All Proper

/-- What a nullable schema offers beside null is written with its assertions. -/
lemma rendered_assertions (draft : Draft) {n : Node} (h : n.All Proper) :
    Rendered draft (.object ((n.mapKeywords Keywords.assertions).members draft false)) :=
  ⟨_, false, rfl, h.mapKeywords (h.self.mapKeywords fun _ hstep => hstep)⟩

/-- A type with or without null keeps the rules. -/
lemma fits_typeMember {type : String} {members : List Member}
    (htype : type ∈ Validation.typeNames) (hne : type ≠ "null") (orNull : Bool) :
    KeywordFits draft good members (typeMember type orNull).1 (typeMember type orNull).2 := by
  cases orNull with
  | false => exact .type htype
  | true => exact .typeOrNull htype hne

/-- A schema or null keeps the rules if the schema is written well. -/
lemma fits_orNullMembers {structural : Keywords → List Member}
    (h : Rendered draft (.object (k.assertions.around (structural k.assertions)))) :
    ∀ m ∈ orNullMembers k structural,
      KeywordFits draft (Rendered draft) (orNullMembers k structural) m.1 m.2 := by
  have hproper : (null {}).All Proper :=
    all_null.mpr (.of_keywords rfl trivial (Configuration.stepPositive_of_eq_none rfl))
  have habsent : Rendered draft (.object [typeMember "null" false]) :=
    ⟨null {}, false, rfl, hproper⟩
  simp only [orNullMembers, List.forall_mem_append, List.forall_mem_singleton, and_assoc]
  refine ⟨k.annotations.fits_head, ?_, k.annotations.fits_tail⟩
  refine .schemas (by decide) (List.cons_ne_nil _ _) ?_
  exact List.forall_mem_cons.mpr ⟨h, List.forall_mem_singleton.mpr habsent⟩

/-- A schema with a plain type keeps the rules if its structure does. -/
lemma fits_typedMembers {structural : Bool → List Member} (hstep : k.StepPositive)
    (h : ∀ orNull, ∀ m ∈ structural orNull,
      KeywordFits draft (Rendered draft) (structural orNull) m.1 m.2)
    (hpresent : Rendered draft (.object (k.assertions.around (structural false)))) :
    ∀ m ∈ typedMembers orNull k structural,
      KeywordFits draft (Rendered draft) (typedMembers orNull k structural) m.1 m.2 := by
  unfold typedMembers
  split
  · exact fits_orNullMembers hpresent
  · exact Keywords.fits_around hstep (h orNull)

/-- A schema without a plain type keeps the rules if its structure does. -/
lemma fits_untypedMembers {structural : Keywords → List Member} (hstep : k.StepPositive)
    (h : ∀ m ∈ structural k, KeywordFits draft (Rendered draft) (structural k) m.1 m.2)
    (hpresent : Rendered draft (.object (k.assertions.around (structural k.assertions)))) :
    ∀ m ∈ untypedMembers orNull k structural,
      KeywordFits draft (Rendered draft) (untypedMembers orNull k structural) m.1 m.2 := by
  unfold untypedMembers
  split
  · exact fits_orNullMembers hpresent
  · exact Keywords.fits_around hstep h

/-- A reference keeps the rules, also inside `allOf`. -/
lemma fits_refMembers (target : CanonicalId) :
    ∀ m ∈ refMembers draft target k,
      KeywordFits draft (Rendered draft) (refMembers draft target k) m.1 m.2 := by
  have hproper : (ref target {}).All Proper :=
    all_ref.mpr (.of_keywords rfl trivial (Configuration.stepPositive_of_eq_none rfl))
  have hinner : Rendered draft (.object [("$ref", .string target.uri)]) :=
    ⟨ref target {}, false, rfl, hproper⟩
  unfold refMembers
  split
  · exact (KeywordFits.text (by decide) _).single
  · refine (KeywordFits.schemas (by decide) (List.cons_ne_nil _ _) ?_).single
    exact List.forall_mem_singleton.mpr hinner

/-- The schemas of a list are written well. -/
lemma rendered_of_mem_renderList {ns : List Node} (h : ∀ n ∈ ns, n.All Proper) :
    ∀ s ∈ renderList draft ns, Rendered draft s := by
  induction ns with
  | nil => exact fun _ hs => absurd hs List.not_mem_nil
  | cons n ns ih =>
    obtain ⟨hn, hns⟩ := List.forall_mem_cons.mp h
    exact List.forall_mem_cons.mpr ⟨⟨n, false, rfl, hn⟩, ih hns⟩

/-- The schemas of properties are written well. -/
lemma rendered_of_mem_renderProperties {ps : List (String × Node)} (h : ∀ p ∈ ps, p.2.All Proper) :
    ∀ entry ∈ renderProperties draft ps, Rendered draft entry.2 := by
  induction ps with
  | nil => exact fun _ hs => absurd hs List.not_mem_nil
  | cons p ps ih =>
    obtain ⟨hp, hps⟩ := List.forall_mem_cons.mp h
    exact List.forall_mem_cons.mpr ⟨⟨p.2, false, rfl, hp⟩, ih hps⟩

/-- Properties are written under their names. -/
lemma keys_renderProperties (draft : Draft) (ps : List (String × Node)) :
    keys (renderProperties draft ps) = ps.map (·.1) := by
  induction ps with
  | nil => rfl
  | cons p ps ih => exact congrArg (p.1 :: ·) ih

/-- The structure of an object keeps the rules. -/
lemma fits_objectParts (draft : Draft) {typed : Bool} {allOf : List Node}
    {properties : List (String × Node)} {required : List String} {additional : Option Node}
    {parts : List Member}
    (h : (object typed allOf properties required additional k).All Proper)
    (hparts : parts = arrayMember "allOf" (renderList draft allOf) ++
      objectMember "properties" (renderProperties draft properties) ++
      arrayMember "required" (required.map .string) ++
      renderOption "additionalProperties" draft additional) :
    ∀ m ∈ parts, KeywordFits draft (Rendered draft) parts m.1 m.2 := by
  obtain ⟨hself, hallOf, hproperties, hadditional⟩ := all_object.mp h
  obtain ⟨hdistinct, hrequired, hnames⟩ := filled_object.mp hself.filled
  have hkeys := keys_renderProperties draft properties
  have hall : ∀ m ∈ arrayMember "allOf" (renderList draft allOf),
      KeywordFits draft (Rendered draft) parts m.1 m.2 := by
    unfold arrayMember
    split
    · exact fun _ hm => absurd hm List.not_mem_nil
    · next hne =>
      exact (KeywordFits.schemas (by decide) (by simpa using hne)
        (rendered_of_mem_renderList hallOf)).single
  have hmap : ∀ m ∈ objectMember "properties" (renderProperties draft properties),
      KeywordFits draft (Rendered draft) parts m.1 m.2 := by
    unfold objectMember
    split
    · exact fun _ hm => absurd hm List.not_mem_nil
    · exact (KeywordFits.named List.mem_cons_self (hkeys ▸ hdistinct)
        (rendered_of_mem_renderProperties hproperties)).single
  have hlist : ∀ m ∈ arrayMember "required" (required.map .string),
      KeywordFits draft (Rendered draft) parts m.1 m.2 := by
    unfold arrayMember
    split
    · exact fun _ hm => absurd hm List.not_mem_nil
    · next hne =>
      -- A required name is the name of a property, so the properties are written.
      obtain ⟨name, hname⟩ := List.exists_mem_of_ne_nil required (by simpa using hne)
      have hentries : renderProperties draft properties ≠ [] := by
        intro hempty
        have hname' := hkeys ▸ hnames hname
        rw [hempty] at hname'
        cases hname'
      have hwritten : ("properties", .object (renderProperties draft properties)) ∈ parts := by
        simp [hparts, objectMember, hentries]
      exact (KeywordFits.required (List.ne_nil_of_mem hname) hrequired hwritten
        (hkeys ▸ hnames)).single
  have hrest : ∀ m ∈ renderOption "additionalProperties" draft additional,
      KeywordFits draft (Rendered draft) parts m.1 m.2 := by
    cases additional with
    | none => exact fun _ hm => absurd hm List.not_mem_nil
    | some n => exact (KeywordFits.schema (by decide) ⟨n, false, rfl, hadditional n rfl⟩).single
  intro m hm
  simp only [hparts, List.mem_append] at hm
  rcases hm with ((hm | hm) | hm) | hm
  · exact hall m hm
  · exact hmap m hm
  · exact hlist m hm
  · exact hrest m hm

/-- The members of a proper node keep the rules. -/
theorem fits_members : ∀ {n : Node} (orNull : Bool), n.All Proper →
    ∀ m ∈ n.members draft orNull,
      KeywordFits draft (Rendered draft) (n.members draft orNull) m.1 m.2
  | any k, _, h => by
    have hstep := h.self.step k rfl
    unfold members
    exact Keywords.fits_around hstep fun _ hm => absurd hm List.not_mem_nil
  | null k, _, h => by
    have hstep := h.self.step k rfl
    unfold members
    exact Keywords.fits_around hstep (KeywordFits.type (by decide)).single
  | scalar primitive k, _, h => by
    have hstep := h.self.step k rfl
    have htype : primitive.text ∈ Validation.typeNames ∧ primitive.text ≠ "null" := by
      cases primitive <;> decide
    have hpresent := rendered_assertions draft h
    unfold members
    exact fits_typedMembers hstep (fun orNull => (fits_typeMember htype.1 htype.2 orNull).single)
      hpresent
  | enum values k, _, h => by
    have hstep := h.self.step k rfl
    have hpresent := rendered_assertions draft h
    have hvalues : values ≠ [] := h.self.filled
    unfold members
    refine fits_typedMembers hstep (fun orNull => ?_) hpresent
    refine List.forall_mem_cons.mpr ⟨fits_typeMember (by decide) (by decide) orNull, ?_⟩
    exact (KeywordFits.enum (by simp [hvalues])).single
  | array items k, _, h => by
    obtain ⟨hself, hitems⟩ := all_array.mp h
    have hpresent := rendered_assertions draft h
    unfold members
    refine fits_typedMembers (hself.step k rfl) (fun orNull => ?_) hpresent
    refine List.forall_mem_cons.mpr ⟨fits_typeMember (by decide) (by decide) orNull, ?_⟩
    exact (KeywordFits.schema (by decide) ⟨items, false, rfl, hitems⟩).single
  | object typed allOf properties required additional k, _, h => by
    have hstep := h.self.step k rfl
    have hpresent := rendered_assertions draft h
    have hparts := fits_objectParts draft h rfl
    cases typed with
    | false =>
      simp only [members, Bool.false_eq_true, if_false]
      exact fits_untypedMembers hstep hparts hpresent
    | true =>
      simp only [members, if_true]
      refine fits_typedMembers hstep (fun orNull => ?_) hpresent
      refine List.forall_mem_cons.mpr ⟨fits_typeMember (by decide) (by decide) orNull, ?_⟩
      exact fun m hm => (hparts m hm).mono (List.subset_cons_self _ _) fun _ hs => hs
  | nullable inner, _, h => by
    unfold members
    exact fits_members true (all_nullable.mp h).2
  | oneOf variants k, _, h => by
    obtain ⟨hself, hvariants⟩ := all_oneOf.mp h
    have hpresent := rendered_assertions draft h
    have hne : renderList draft variants ≠ [] := by
      cases variants with
      | nil => exact absurd rfl hself.filled
      | cons n ns => exact List.cons_ne_nil _ _
    unfold members
    refine fits_untypedMembers (hself.step k rfl) ?_ hpresent
    exact (KeywordFits.schemas (by decide) hne (rendered_of_mem_renderList hvariants)).single
  | nominal name k, _, h => by
    have hpresent := rendered_assertions draft h
    unfold members
    exact fits_untypedMembers (h.self.step k rfl) (fun _ hm => absurd hm List.not_mem_nil) hpresent
  | ref target k, _, h => by
    have hpresent := rendered_assertions draft h
    unfold members
    exact fits_untypedMembers (h.self.step k rfl) (fits_refMembers target) hpresent

/-- The members of a proper node are well-shaped, and the schemas in them are written well. -/
theorem wellShaped_members (draft : Draft) {n : Node} (h : n.All Proper) (orNull : Bool) :
    WellShaped draft (Rendered draft) (n.members draft orNull) where
  distinct := by
    have hkeys := (keys_members draft n orNull).trans
      (List.sublist_append_left memberKeys [draft.definitionsKeyword])
    exact (hkeys.trans ((List.sublist_cons_self _ _).trans (List.sublist_cons_self _ _))).nodup
      (nodup_memberKeys draft)
  fits := fits_members orNull h
  alone := by
    rintro rfl
    have hwrapped : Json.Wrapped (.object (n.members .draft07 orNull)) := by
      refine Or.inl ⟨.object (n.members .draft202012 orNull), ?_⟩
      rw [Json.wrapRefs_object, wrapped_members]
    exact hwrapped.alone

/-! ### Schemas inside written nodes -/

variable {members : List Member} {s : Json}

/-- A written schema is an object. -/
lemma Rendered.isObject (h : Rendered draft s) : s.isObject = true := by
  obtain ⟨n, orNull, rfl, -⟩ := h
  rfl

/-- A written schema is well-shaped. -/
lemma Rendered.wellShaped (h : Rendered draft (.object members)) :
    WellShaped draft (fun s => s.isObject = true) members := by
  obtain ⟨n, orNull, hsame, hproper⟩ := h
  obtain rfl := Json.object.inj hsame
  have hwritten := wellShaped_members draft hproper orNull
  exact ⟨hwritten.distinct,
    fun m hm => (hwritten.fits m hm).mono (List.Subset.refl _) fun _ hs => hs.isObject,
    hwritten.alone⟩

/-- The schemas in a written schema are written schemas. -/
lemma Rendered.inside (h : Rendered draft (.object members)) : ∀ m ∈ members,
    ∀ s ∈ (Json.placeOf (some draft) m.1).contents m.2, Rendered draft s := by
  obtain ⟨n, orNull, hsame, hproper⟩ := h
  obtain rfl := Json.object.inj hsame
  intro m hm s hs
  exact ((wellShaped_members draft hproper orNull).fits m hm).good_of_mem_contents hs

/-- A written schema has only the keys of nodes. -/
lemma Rendered.keys_subset (h : Rendered draft (.object members)) : keys members ⊆ memberKeys := by
  obtain ⟨n, orNull, hsame, -⟩ := h
  obtain rfl := Json.object.inj hsame
  exact (keys_members draft n orNull).subset

end Node

end SchemaCompiler
