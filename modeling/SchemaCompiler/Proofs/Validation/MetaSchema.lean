import SchemaCompiler.Proofs.FirstMention
import SchemaCompiler.Proofs.Schema.WellShaped

/-!
# What meta-schemas ask of well-shaped schemas

A keyword that keeps the rules has a value of the form that either draft asks for, except that the
draft can ask something of a text (`Json.KeywordFits.conforms_iff`).  So where every schema is a
well-shaped object, only texts decide whether a value is a schema of its draft
(`Validation.isSchema_iff`).
-/

namespace SchemaCompiler

open Json (KeywordFits WellShaped placeOf)

namespace Validation

variable {draft : Draft} {form : Form}

/-! ### Lists and objects -/

/-- Items have a form if each of them has it. -/
lemma itemsConform_iff {items : List Json} :
    itemsConform draft form items = true ↔ ∀ item ∈ items, conforms draft form item = true := by
  induction items with
  | nil => simp [itemsConform]
  | cons item items ih => simp [itemsConform, ih]

/-- Members have their forms if each of them fits. -/
lemma membersConform_iff {member : String → Form} {members : List (String × Json)} :
    membersConform draft form member members = true ↔
      ∀ m ∈ members, keyFits draft m.1 form = true ∧ conforms draft (member m.1) m.2 = true := by
  induction members with
  | nil => simp [membersConform]
  | cons m members ih => simp [membersConform, ih]

/-- A list has a form if its length and variety fit and each item has the form of items. -/
lemma conforms_array {item : Form} (h : form.items? = some item) {items : List Json} :
    conforms draft form (.array items) = true ↔
      listFits items form = true ∧ ∀ s ∈ items, conforms draft item s = true := by
  rw [conforms, h]
  dsimp only
  rw [Bool.and_eq_true, itemsConform_iff]

/-- An object has a form if each member fits. -/
lemma conforms_object {member : String → Form} (h : form.members? draft = some member)
    {members : List (String × Json)} :
    conforms draft form (.object members) = true ↔
      ∀ m ∈ members, keyFits draft m.1 form = true ∧ conforms draft (member m.1) m.2 = true := by
  rw [conforms, h]
  exact membersConform_iff

/-- Nothing is asked of the number and variety of items. -/
lemma listFits_of_free (hitem : form.needsItem = false) (hdistinct : form.needsDistinct = false)
    (items : List Json) : listFits items form = true := by
  simp [listFits, hitem, hdistinct]

/-- Different texts are as various as a form can ask. -/
lemma listFits_texts {texts : List String} (hne : texts ≠ []) (hnodup : texts.Nodup)
    (form : Form) : listFits (texts.map .string) form = true := by
  have htexts : (texts.map Json.string).filterMap Json.asString? = texts := by
    simp [List.filterMap_map, Function.comp_def, Json.asString?]
  simp [listFits, htexts, eraseDups_of_nodup hnodup, hne]

mutual

/-- Where nothing is asked, any value will do. -/
theorem conforms_anything : ∀ value : Json, conforms draft .anything value = true
  | .null | .bool _ | .number _ | .string _ => rfl
  | .array items =>
    (conforms_array rfl).mpr ⟨listFits_of_free rfl rfl items, forall_conforms_anything items⟩
  | .object members =>
    (conforms_object rfl).mpr fun m hm => ⟨rfl, forall_members_conforms_anything members m hm⟩

/-- Where nothing is asked, any items will do. -/
theorem forall_conforms_anything : ∀ items : List Json,
    ∀ item ∈ items, conforms draft .anything item = true
  | [] => nofun
  | item :: items =>
    List.forall_mem_cons.mpr ⟨conforms_anything item, forall_conforms_anything items⟩

/-- Where nothing is asked, any members will do. -/
theorem forall_members_conforms_anything : ∀ members : List (String × Json),
    ∀ m ∈ members, conforms draft .anything m.2 = true
  | [] => nofun
  | (_, value) :: members =>
    List.forall_mem_cons.mpr ⟨conforms_anything value, forall_members_conforms_anything members⟩

end

/-! ### Numbers -/

/-- A number above zero is one for a meta-schema. -/
lemma isPositive_of_isPositive {n : Json.Number} (h : n.IsPositive) : isPositive n = true := by
  have hzero : (Binary64.ofInt? 0).any (fun zero => zero.scaled == 0) = true := by
    decide +kernel
  cases n with
  | int n =>
    have hgt : Ord.compare n 0 = .gt := Int.compare_eq_gt.mpr h
    simp [isPositive, Json.Number.compare, hgt]
  | float x =>
    cases hdouble : Binary64.ofInt? 0 with
    | none => simp [hdouble] at hzero
    | some zero =>
      have hscaled : zero.scaled = 0 := by simpa [hdouble] using hzero
      have hgt : x.compare zero = .gt := by
        rw [Binary64.compare, hscaled]
        exact Int.compare_eq_gt.mpr h
      simp [isPositive, Json.Number.compare, Json.Number.double?, hdouble, hgt]

/-! ### Keywords -/

variable {members : List (String × Json)} {key : String} {value : Json}

/-- A keyword without schemas has its form if it is a text that has it or anything that has it. -/
lemma conforms_leaf (members : List (String × Json))
    (h : KeywordFits draft (fun _ => False) members key value)
    (hvalue : (∃ text, value = .string text) ∨
      conforms draft (keywordForm draft key) value = true) :
    conforms draft (keywordForm draft key) value = true ↔
      (∀ text, value = .string text → textFits draft text (keywordForm draft key) = true) ∧
        ∀ s ∈ (placeOf (some draft) key).contents value, isSchema draft s = true := by
  constructor
  · intro hconforms
    refine ⟨?_, fun s hs => (h.good_of_mem_contents hs).elim⟩
    rintro text rfl
    exact hconforms
  · rintro ⟨htext, -⟩
    rcases hvalue with ⟨text, rfl⟩ | hconforms
    · exact htext text rfl
    · exact hconforms

/-- An object that may stand for a list of schemas is a schema. -/
lemma conforms_schemaOrSchemas (members : List (String × Json)) :
    conforms draft .schemaOrSchemas (.object members) = isSchema draft (.object members) := by
  rw [isSchema, Bool.eq_iff_iff, conforms_object rfl, conforms_object rfl]
  rfl

/-- A keyword with one schema has the form that its draft asks for if the schema is one. -/
lemma conforms_schema_iff {key : String} (hkey : key ∈ ["items", "additionalProperties"])
    {s : Json} (hs : s.isObject = true) :
    conforms draft (keywordForm draft key) s = true ↔ isSchema draft s = true := by
  have hform : ∀ key ∈ ["items", "additionalProperties"],
      keywordForm draft key = .schema ∨ keywordForm draft key = .schemaOrSchemas := by
    cases draft <;> decide
  cases s with
  | object members =>
    rcases hform key hkey with hform | hform <;> rw [hform]
    · exact Iff.rfl
    · rw [conforms_schemaOrSchemas]
  | null | bool | number | string | array => cases hs

/-- A list of schemas has its form if each of them is a schema. -/
lemma conforms_schemas_iff {items : List Json} (hne : items ≠ []) :
    conforms draft .schemas (.array items) = true ↔ ∀ s ∈ items, isSchema draft s = true := by
  have hfits : listFits items .schemas = true := by
    simp [listFits, Form.needsItem, Form.needsDistinct, hne]
  rw [conforms_array rfl, hfits]
  exact and_iff_right rfl

/-- Schemas under names have their form if each of them is a schema. -/
lemma conforms_schemaByKey_iff {entries : List (String × Json)} :
    conforms draft .schemaByKey (.object entries) = true ↔
      ∀ s ∈ entries.map (·.2), isSchema draft s = true := by
  rw [conforms_object rfl, List.forall_mem_map]
  exact forall₂_congr fun entry _ => and_iff_right rfl

/-- A keyword that keeps the rules has the form that its draft asks for exactly if it does as a
text, and the schemas in it are schemas of the draft. -/
theorem conforms_keyword_iff
    (h : KeywordFits draft (fun s => s.isObject = true) members key value) :
    conforms draft (keywordForm draft key) value = true ↔
      (∀ text, value = .string text → textFits draft text (keywordForm draft key) = true) ∧
        ∀ s ∈ (placeOf (some draft) key).contents value, isSchema draft s = true := by
  obtain ⟨-, hschema, hschemas, -, -⟩ := Node.placeOf_structure (some draft)
  cases h with
  | type hname => exact conforms_leaf members (.type hname) (Or.inl ⟨_, rfl⟩)
  | typeOrNull hname hne =>
    have hform : keywordForm draft "type" = .types := by cases draft <;> rfl
    have hnull : "null" ∈ typeNames := by decide
    refine conforms_leaf members (.typeOrNull hname hne) (Or.inr ?_)
    rw [hform]
    refine (conforms_array rfl).mpr ⟨listFits_texts (by simp) (by simpa using hne) _, ?_⟩
    simpa [conforms, textFits] using ⟨hname, hnull⟩
  | enum hne =>
    have hform : keywordForm draft "enum" = .list := by cases draft <;> rfl
    refine conforms_leaf members (.enum hne) (Or.inr ?_)
    rw [hform]
    exact (conforms_array rfl).mpr ⟨listFits_of_free rfl rfl _, fun s _ => conforms_anything s⟩
  | required hne hdistinct hmem hnames =>
    have hform : keywordForm draft "required" = .texts := by cases draft <;> rfl
    refine conforms_leaf members (.required hne hdistinct hmem hnames) (Or.inr ?_)
    rw [hform]
    refine (conforms_array rfl).mpr ⟨listFits_texts hne hdistinct _, fun s hs => ?_⟩
    obtain ⟨name, -, rfl⟩ := List.mem_map.mp hs
    rfl
  | schema hkey hs =>
    rw [conforms_schema_iff hkey hs, hschema key hkey, Json.Place.contents,
      List.forall_mem_singleton, iff_and_self]
    rintro - text rfl
    cases hs
  | schemas hkey hne hitems =>
    have hform : ∀ key ∈ ["allOf", "anyOf", "oneOf"], keywordForm draft key = .schemas := by
      cases draft <;> decide
    rw [hform key hkey, conforms_schemas_iff hne, hschemas key hkey]
    refine (and_iff_right fun text hsame => ?_).symm
    cases hsame
  | named hkey hdistinct hentries =>
    have hform : ∀ key ∈ ["properties", draft.definitionsKeyword],
        keywordForm draft key = .schemaByKey ∧ placeOf (some draft) key = .namedSchemas := by
      cases draft <;> decide
    rw [(hform key hkey).1, conforms_schemaByKey_iff, (hform key hkey).2]
    refine (and_iff_right fun text hsame => ?_).symm
    cases hsame
  | step hpos =>
    have hform : keywordForm draft "multipleOf" = .positiveNumber := by cases draft <;> rfl
    refine conforms_leaf members (.step hpos) (Or.inr ?_)
    rw [hform]
    exact isPositive_of_isPositive hpos
  | count keyword n =>
    have hform : keywordForm draft keyword.name = .count := by
      cases keyword <;> cases draft <;> rfl
    refine conforms_leaf members (.count keyword n) (Or.inr ?_)
    rw [hform]
    exact decide_eq_true (Int.natCast_nonneg n)
  | bound keyword n =>
    have hform : keywordForm draft keyword.name = .number := by
      cases keyword <;> cases draft <;> rfl
    refine conforms_leaf members (.bound keyword n) (Or.inr ?_)
    rw [hform]
    rfl
  | text hkey text => exact conforms_leaf members (.text hkey text) (Or.inl ⟨text, rfl⟩)
  | flag hkey b =>
    have hform : ∀ key ∈ Json.flagKeys,
        keywordForm draft key = .boolean ∨ keywordForm draft key = .anything := by
      cases draft <;> decide
    refine conforms_leaf members (.flag hkey b) (Or.inr ?_)
    rcases hform key hkey with hform | hform <;> rw [hform] <;> rfl
  | data hkey value =>
    have hform : ∀ key ∈ Json.dataKeys, keywordForm draft key = .anything := by
      cases draft <;> decide
    refine conforms_leaf members (.data hkey value) (Or.inr ?_)
    rw [hform key hkey]
    exact conforms_anything value

/-- Only of an identifier, a reference or a pattern does a draft ask more than being a text. -/
lemma textFits_of_fits {text : String}
    (h : KeywordFits draft (fun s => s.isObject = true) members key (.string text))
    (hkey : key ∉ ["$schema", "$id", "$ref", "pattern"]) :
    textFits draft text (keywordForm draft key) = true := by
  have htext : ∀ key ∈ Json.textKeys, key ∉ ["$schema", "$id", "$ref", "pattern"] →
      keywordForm draft key = .text := by
    cases draft <;> decide
  have hdata : ∀ key ∈ Json.dataKeys, keywordForm draft key = .anything := by
    cases draft <;> decide
  cases h with
  | type hname =>
    have hform : keywordForm draft "type" = .types := by cases draft <;> rfl
    rw [hform]
    exact List.contains_iff_mem.mpr hname
  | text hmem =>
    rw [htext key hmem hkey]
    rfl
  | data hmem =>
    rw [hdata key hmem]
    rfl
  | schema _ hs => cases hs

/-! ### Schemas -/

/-- An object that keeps the rules is a schema if its texts have their forms, and the schemas in it
are schemas. -/
lemma isSchema_object_iff (h : WellShaped draft (fun s => s.isObject = true) members) :
    isSchema draft (.object members) = true ↔ ∀ m ∈ members,
      (∀ text, m.2 = .string text → textFits draft text (keywordForm draft m.1) = true) ∧
        ∀ s ∈ (placeOf (some draft) m.1).contents m.2, isSchema draft s = true := by
  rw [isSchema, conforms_object rfl]
  refine forall₂_congr fun m hm => ?_
  rw [← conforms_keyword_iff (h.fits m hm)]
  exact and_iff_right rfl

/-- Where every schema is a well-shaped object, only texts decide whether a value is a schema of
its draft. -/
theorem isSchema_iff {v : Json} (h : v.AllWellShaped draft) :
    isSchema draft v = true ↔ ∀ path members,
      Json.SchemaAt (some draft) v path (.object members) → ∀ key text,
        (key, .string text) ∈ members → textFits draft text (keywordForm draft key) = true := by
  constructor
  · -- Being a schema passes to the schemas inside, as all of them are well-shaped.
    intro hv path members hat key text hmem
    obtain ⟨hschema, hall⟩ := hat.preserves
      (P := fun s => isSchema draft s = true ∧ s.AllWellShaped draft)
      (fun members ⟨hschema, hall⟩ m hm s hs =>
        ⟨((isSchema_object_iff hall.self).mp hschema m hm).2 s hs, hall.inside hm hs⟩) ⟨hv, h⟩
    exact ((isSchema_object_iff hall.self).mp hschema _ hmem).1 text rfl
  · intro htexts
    have hall : ∀ path s, Json.SchemaAt (some draft) v path s → ∃ members, s = .object members ∧
        WellShaped draft (fun s => s.isObject = true) members ∧ ∀ key text,
          (key, .string text) ∈ members → textFits draft text (keywordForm draft key) = true := by
      intro path s hat
      obtain ⟨members, rfl, hmembers⟩ := h path s hat
      exact ⟨members, rfl, hmembers, htexts path members hat⟩
    refine Json.of_contents (P := fun s => isSchema draft s = true) ?_ v hall
    rintro members ⟨hmembers, hfits⟩ hinner
    refine (isSchema_object_iff hmembers).mpr fun m hm => ⟨fun text htext => ?_, hinner m hm⟩
    exact hfits m.1 text (htext ▸ hm)

end Validation

end SchemaCompiler
