import SchemaCompiler.Proofs.Configuration
import SchemaCompiler.Proofs.Document.ReferenceStage
import SchemaCompiler.Proofs.Validation.MetaSchema

/-!
# Documents are structurally valid

`Document.StructurallyValid` says of the JSON value of a document that every schema in it keeps the
rules of keywords (`Json.KeywordFits`), that the document and its definitions are the only schemas
with an identifier, and that it is a schema of its draft.  Only the meta-schema of draft-07 can
still object to something: to the texts of patterns, and to those of identifiers, which are no URI
references under some bases (`Generator.not_isSchema_fenced`).

A schema in a document is the document itself, a definition, or a written node inside one of them
(`Document.Presentable.position_cases`), so the rules need to be seen only of what a document adds
to the nodes that it is written from.  Every document that a run generates is structurally valid
(`Generator.structurallyValid_document`).
-/

namespace SchemaCompiler

namespace Document

open Association (keys)
open Json (KeywordFits SchemaAt WellShaped placeOf)
open Node (Proper Rendered)
open Pattern (isPattern)
open Uri.Reference (isReference)
open Validation (isSchema keywordForm lacksFragment textFits)

/-- The JSON value of a document has the shape of a schema. -/
structure StructurallyValid (d : Document) : Prop where
  /-- The document and every schema inside it are objects whose keywords keep the rules. -/
  wellShaped : d.toJson.AllWellShaped d.draft
  /-- The schemas with an identifier are the document and its definitions. -/
  identified : ∀ path members, SchemaAt (some d.draft) d.toJson path (.object members) →
    ("$id" ∈ keys members ↔ path = [] ∨ ∃ name, path = [d.draft.definitionsKeyword, name])
  /-- It is a schema of its draft, where draft-07 also asks that identifiers are URI references and
  that patterns are regular expressions. -/
  metaSchema : isSchema d.draft d.toJson = true ↔ (d.draft = .draft07 →
    (∀ id ∈ d.id :: d.definitions.map (·.id), isReference id.uri = true) ∧
    ∀ path members text, SchemaAt (some d.draft) d.toJson path (.object members) →
      ("pattern", .string text) ∈ members → isPattern text = true)

/-- The document is complete, its schemas are proper, none of them is a mere reference, and there is
no fragment in an identifier. -/
structure Presentable (d : Document) : Prop extends d.Complete where
  proper : ∀ n ∈ d.nodes, n.All Proper
  substantial : ∀ n ∈ d.nodes, ∃ key ∈ keys (n.members d.draft false), key ≠ "$ref"
  unfragmented : ∀ id ∈ d.id :: d.definitions.map (·.id), lacksFragment id.uri = true

variable {d : Document} {e : Definition} {path : List String} {s : Json} {text : String}

/-! ### Members of documents and definitions -/

/-- The members of a document. -/
def allMembers (d : Document) : List (String × Json) :=
  d.ownMembers ++
    if d.definitions.isEmpty then []
    else [(d.draft.definitionsKeyword, .object (d.definitions.map (embed d.draft)))]

/-- The members of an embedded definition. -/
def embeddedMembers (draft : Draft) (e : Definition) : List (String × Json) :=
  ("$id", .string e.id.uri) :: e.node.members draft false

/-- A member of a document is one of its own or holds the definitions. -/
lemma mem_allMembers {member : String × Json} (h : member ∈ d.allMembers) :
    member ∈ d.ownMembers ∨
      member = (d.draft.definitionsKeyword, .object (d.definitions.map (embed d.draft))) := by
  rcases List.mem_append.mp h with h | h
  · exact Or.inl h
  · split at h
    · cases h
    · exact Or.inr (List.mem_singleton.mp h)

/-- Where there is a definition, a member holds the definitions. -/
lemma definitions_mem_allMembers (he : e ∈ d.definitions) :
    (d.draft.definitionsKeyword, Json.object (d.definitions.map (embed d.draft))) ∈
      d.allMembers := by
  have hne : d.definitions.isEmpty = false := List.isEmpty_eq_false_iff.mpr (List.ne_nil_of_mem he)
  exact List.mem_append_right _ (by simp [hne])

/-- The keys of a document are distinct. -/
lemma nodup_keys_allMembers (d : Document) : (keys d.allMembers).Nodup := by
  rw [allMembers, Node.keys_append]
  refine List.nodup_append.mpr ⟨d.nodup_keys_ownMembers, ?_, ?_⟩
  · split
    · exact List.nodup_nil
    · exact List.nodup_singleton _
  · rintro key hkey other hother rfl
    split at hother
    · cases hother
    · have hsame : key = d.draft.definitionsKeyword := List.mem_singleton.mp hother
      exact d.definitionsKeyword_not_mem (hsame ▸ hkey)

/-- The keys of an embedded definition keep their order. -/
lemma keys_embeddedMembers (draft : Draft) (e : Definition) :
    (keys (embeddedMembers draft e)).Sublist ("$id" :: Node.memberKeys) :=
  (Node.keys_members draft e.node false).cons_cons "$id"

/-- The keys of an embedded definition are distinct. -/
lemma nodup_keys_embeddedMembers (draft : Draft) (e : Definition) :
    (keys (embeddedMembers draft e)).Nodup := by
  have hall := Node.nodup_memberKeys draft
  exact ((keys_embeddedMembers draft e).trans (List.sublist_append_left _ _)).nodup
    (List.nodup_cons.mp hall).2

/-- There is no schema in what a document adds to a node. -/
lemma not_mem_contents_added {draft : Draft} {key : String} (hkey : key = "$schema" ∨ key = "$id")
    {value : Json} : s ∉ (placeOf (some draft) key).contents value := by
  intro hs
  rcases hkey with rfl | rfl
  · rw [(placeOf_added _).1] at hs
    cases hs
  · rw [(placeOf_added _).2] at hs
    cases hs

/-- A schema in the definitions section of a document is a definition. -/
lemma exists_definition {step : List String}
    (hhead : step.head? = some d.draft.definitionsKeyword)
    (hstep : Json.Holds (some d.draft) d.allMembers step s) :
    ∃ e ∈ d.definitions, step = [d.draft.definitionsKeyword, e.schemaName] ∧
      s = .object (embeddedMembers d.draft e) := by
  have hplace : placeOf (some d.draft) d.draft.definitionsKeyword = .namedSchemas := by
    simp [placeOf]
  obtain ⟨entries, name, hentries, hentry, rfl⟩ := hstep.exists_entry hhead hplace
  rcases mem_allMembers hentries with hown | hsame
  · exact absurd (List.mem_map_of_mem hown) d.definitionsKeyword_not_mem
  · obtain rfl := Json.object.inj (congrArg Prod.snd hsame)
    obtain ⟨e, he, hembed⟩ := List.mem_map.mp hentry
    rw [embed_eq] at hembed
    obtain ⟨rfl, rfl⟩ := Prod.mk.inj hembed
    exact ⟨e, he, rfl, rfl⟩

namespace Presentable

/-- The node of a definition is a schema of the document. -/
lemma mem_nodes (he : e ∈ d.definitions) : e.node ∈ d.nodes :=
  List.mem_cons_of_mem _ (List.mem_map_of_mem he)

/-- Each schema of the document is written in keeping with the rules of keywords. -/
lemma wellShaped_node (h : d.Presentable) {n : Node} (hn : n ∈ d.nodes) :
    WellShaped d.draft (Rendered d.draft) (n.members d.draft false) :=
  Node.wellShaped_members d.draft (h.proper n hn) false

/-- The root is written in keeping with the rules of keywords. -/
lemma wellShaped_root (h : d.Presentable) :
    WellShaped d.draft (Rendered d.draft) (d.root.members d.draft false) :=
  h.wellShaped_node List.mem_cons_self

/-- No schema of the document is written as a reference where it has to stand alone. -/
lemma not_mem_ref (h : d.Presentable) (hdraft : d.draft = .draft07) {n : Node} (hn : n ∈ d.nodes) :
    "$ref" ∉ keys (n.members d.draft false) := by
  intro href
  obtain ⟨key, hkey, hne⟩ := h.substantial n hn
  exact hne ((h.wellShaped_node hn).alone hdraft href key hkey)

/-! ### Where schemas stand -/

/-- The schemas that a document holds besides definitions are written nodes. -/
lemma rendered_own (h : d.Presentable) {member : String × Json} (hmem : member ∈ d.ownMembers)
    (hs : s ∈ (placeOf (some d.draft) member.1).contents member.2) :
    Rendered d.draft s ∧ member.1 ∈ Node.memberKeys := by
  rcases List.mem_append.mp hmem with hadded | hnode
  · have hkey : member.1 = "$schema" ∨ member.1 = "$id" := by
      rcases List.mem_pair.mp hadded with rfl | rfl
      · exact Or.inl rfl
      · exact Or.inr rfl
    exact absurd hs (not_mem_contents_added hkey)
  · exact ⟨(h.wellShaped_root.fits member hnode).good_of_mem_contents hs,
      (Node.keys_members d.draft d.root false).subset (List.mem_map_of_mem hnode)⟩

/-- The schemas that an embedded definition holds are written nodes. -/
lemma rendered_embedded (h : d.Presentable) (he : e ∈ d.definitions) {member : String × Json}
    (hmem : member ∈ embeddedMembers d.draft e)
    (hs : s ∈ (placeOf (some d.draft) member.1).contents member.2) : Rendered d.draft s := by
  rcases List.mem_cons.mp hmem with rfl | hnode
  · exact absurd hs (not_mem_contents_added (Or.inr rfl))
  · exact ((h.wellShaped_node (mem_nodes he)).fits member hnode).good_of_mem_contents hs

/-- A schema in a document is the document, a definition, or a written node inside one of them. -/
theorem position_cases (h : d.Presentable) (hat : SchemaAt (some d.draft) d.toJson path s) :
    (path = [] ∧ s = .object d.allMembers) ∨
      (∃ e ∈ d.definitions, path = [d.draft.definitionsKeyword, e.schemaName] ∧
        s = .object (embeddedMembers d.draft e)) ∨
      (Rendered d.draft s ∧ path ≠ [] ∧ ∀ name, path ≠ [d.draft.definitionsKeyword, name]) := by
  have hinside : ∀ {v path}, Rendered d.draft v → SchemaAt (some d.draft) v path s →
      Rendered d.draft s := fun hv hat => hat.preserves (fun _ hm => hm.inside) hv
  have hroot : SchemaAt (some d.draft) (.object d.allMembers) path s :=
    toJson_eq h.nodup_schemaName ▸ hat
  cases hroot with
  | here => exact Or.inl ⟨rfl, rfl⟩
  | @inside _ step rest inner _ hstep hinner =>
    obtain ⟨member, hmem, hhead, hcontents⟩ := hstep.exists_contents
    rcases mem_allMembers hmem with hown | rfl
    · obtain ⟨hrendered, hkey⟩ := h.rendered_own hown hcontents
      have hne : member.1 ≠ d.draft.definitionsKeyword := by
        have hall := Node.nodup_memberKeys d.draft
        exact (List.nodup_append.mp hall).2.2 _
          (List.mem_cons_of_mem _ (List.mem_cons_of_mem _ hkey)) _ List.mem_cons_self
      have hfirst : (step ++ rest).head? = some member.1 := by
        rw [List.head?_append, hhead, Option.some_or]
      refine Or.inr (Or.inr ⟨hinside hrendered hinner, fun hnil => ?_, fun name heq => ?_⟩)
      · rw [hnil] at hfirst
        cases hfirst
      · rw [heq] at hfirst
        exact hne (Option.some.inj hfirst).symm
    · obtain ⟨e, he, rfl, rfl⟩ := exists_definition hhead hstep
      cases hinner with
      | here => exact Or.inr (Or.inl ⟨e, he, rfl, rfl⟩)
      | @inside _ step' rest' _ _ hstep' hinner' =>
        obtain ⟨member', hmem', hhead', hcontents'⟩ := hstep'.exists_contents
        have hrendered := h.rendered_embedded he hmem' hcontents'
        refine Or.inr (Or.inr ⟨hinside hrendered hinner', by simp, fun name heq => ?_⟩)
        obtain ⟨-, hnil, -⟩ : e.schemaName = name ∧ step' = [] ∧ rest' = [] := by simpa using heq
        rw [hnil] at hhead'
        cases hhead'

/-! ### Rules of keywords -/

/-- A document keeps the rules of keywords. -/
lemma wellShaped_allMembers (h : d.Presentable) :
    WellShaped d.draft (fun s => s.isObject = true) d.allMembers where
  distinct := d.nodup_keys_allMembers
  fits := by
    intro member hmem
    rcases mem_allMembers hmem with hown | rfl
    · rcases List.mem_append.mp hown with hadded | hnode
      · have htext : "$schema" ∈ Json.textKeys ∧ "$id" ∈ Json.textKeys := by decide
        rcases List.mem_pair.mp hadded with rfl | rfl
        · exact .text htext.1 d.draft.metaSchema
        · exact .text htext.2 d.id.uri
      · refine (h.wellShaped_root.fits member hnode).mono (fun m hm => ?_) fun _ hs => hs.isObject
        exact List.mem_append_left _ (List.mem_append_right _ hm)
    · refine .named (by simp) ?_ fun entry hentry => ?_
      · have hkeys : keys (d.definitions.map (embed d.draft)) =
            d.definitions.map (·.schemaName) := by
          rw [Association.keys, List.map_map]
          rfl
        rw [hkeys]
        exact h.nodup_schemaName
      · obtain ⟨e, -, rfl⟩ := List.mem_map.mp hentry
        rfl
  alone := by
    intro hdraft href
    have hne : "$ref" ≠ "$schema" ∧ "$ref" ≠ "$id" ∧ "$ref" ≠ Draft.draft07.definitionsKeyword := by
      decide
    obtain ⟨member, hmem, hkey⟩ := List.mem_map.mp href
    rcases mem_allMembers hmem with hown | rfl
    · rcases List.mem_append.mp hown with hadded | hnode
      · rcases List.mem_pair.mp hadded with rfl | rfl
        · exact absurd hkey.symm hne.1
        · exact absurd hkey.symm hne.2.1
      · exact absurd (hkey ▸ List.mem_map_of_mem hnode) (h.not_mem_ref hdraft List.mem_cons_self)
    · exact absurd (hdraft ▸ hkey.symm) hne.2.2

/-- An embedded definition keeps the rules of keywords. -/
lemma wellShaped_embeddedMembers (h : d.Presentable) (he : e ∈ d.definitions) :
    WellShaped d.draft (fun s => s.isObject = true) (embeddedMembers d.draft e) where
  distinct := nodup_keys_embeddedMembers d.draft e
  fits := by
    intro member hmem
    rcases List.mem_cons.mp hmem with rfl | hnode
    · have htext : "$id" ∈ Json.textKeys := by decide
      exact .text htext e.id.uri
    · have hfits := (h.wellShaped_node (mem_nodes he)).fits member hnode
      refine hfits.mono (fun m hm => ?_) fun _ hs => hs.isObject
      exact List.mem_cons_of_mem _ hm
  alone := by
    intro hdraft href
    have hne : "$ref" ≠ "$id" := by decide
    rcases List.mem_cons.mp href with hkey | hnode
    · exact absurd hkey hne
    · exact absurd hnode (h.not_mem_ref hdraft (mem_nodes he))

/-- Every schema in a document keeps the rules of keywords. -/
lemma allWellShaped (h : d.Presentable) : d.toJson.AllWellShaped d.draft := by
  intro path s hat
  rcases h.position_cases hat with ⟨-, rfl⟩ | ⟨e, he, -, rfl⟩ | ⟨hrendered, -⟩
  · exact ⟨_, rfl, h.wellShaped_allMembers⟩
  · exact ⟨_, rfl, h.wellShaped_embeddedMembers he⟩
  · obtain ⟨n, orNull, rfl, hproper⟩ := hrendered
    exact ⟨_, rfl, Rendered.wellShaped ⟨n, orNull, rfl, hproper⟩⟩

/-! ### Identifiers -/

/-- The document and its definitions are the schemas with an identifier. -/
lemma identified (h : d.Presentable) {members : List (String × Json)}
    (hat : SchemaAt (some d.draft) d.toJson path (.object members)) :
    "$id" ∈ keys members ↔ path = [] ∨ ∃ name, path = [d.draft.definitionsKeyword, name] := by
  rcases h.position_cases hat with ⟨rfl, hsame⟩ | ⟨e, he, rfl, hsame⟩ | ⟨hrendered, hne, hne'⟩
  · obtain rfl := Json.object.inj hsame
    exact iff_of_true (List.mem_cons_of_mem _ List.mem_cons_self) (Or.inl rfl)
  · obtain rfl := Json.object.inj hsame
    exact iff_of_true List.mem_cons_self (Or.inr ⟨_, rfl⟩)
  · refine iff_of_false (fun hkey => ?_) ?_
    · exact absurd (hrendered.keys_subset hkey) (by decide)
    · rintro (hnil | ⟨name, hname⟩)
      · exact hne hnil
      · exact hne' name hname

/-! ### Texts -/

/-- A draft asks the same of a reference as of an identifier, or nothing. -/
lemma textFits_ref {draft : Draft} (hid : textFits draft text (keywordForm draft "$id") = true) :
    textFits draft text (keywordForm draft "$ref") = true := by
  cases draft with
  | draft07 => exact hid
  | draft202012 => rfl

/-- A reference in a document is an identifier in it. -/
lemma exists_id (h : d.Presentable) {members : List (String × Json)}
    (hat : SchemaAt (some d.draft) d.toJson path (.object members))
    (hmem : ("$ref", .string text) ∈ members) :
    ∃ id ∈ d.id :: d.definitions.map (·.id), id.uri = text := by
  have href : placeOf (some d.draft) "$ref" = .reference := (Node.placeOf_structure _).1
  have htext := hat.mem_schemaRefs (Json.mem_schemaRefs_of_mem href hmem)
  rw [schemaRefs_toJson_some h.nodup_schemaName] at htext
  obtain ⟨n, hn, htext⟩ := List.mem_flatMap.mp htext
  obtain ⟨id, hid, rfl⟩ := List.mem_map.mp htext
  rcases h.resolved n hn id hid with rfl | ⟨e, he, rfl⟩
  · exact ⟨_, List.mem_cons_self, rfl⟩
  · exact ⟨_, List.mem_cons_of_mem _ (List.mem_map_of_mem he), rfl⟩

/-- The text of a keyword that a document adds is that of its meta-schema or an identifier. -/
lemma added_text (h : d.Presentable) {members : List (String × Json)}
    (hat : SchemaAt (some d.draft) d.toJson path (.object members)) :
    (("$schema", .string text) ∈ members → text = d.draft.metaSchema) ∧
      (("$id", .string text) ∈ members →
        ∃ id ∈ d.id :: d.definitions.map (·.id), id.uri = text) := by
  have hunique : ∀ {members : List (String × Json)} {key first second}, (keys members).Nodup →
      (key, Json.string first) ∈ members → (key, Json.string second) ∈ members →
        first = second := by
    intro members key first second hkeys hfirst hsecond
    have hsame := List.inj_on_of_nodup_map hkeys hfirst hsecond rfl
    exact Json.string.inj (Prod.mk.inj hsame).2
  rcases h.position_cases hat with ⟨-, hsame⟩ | ⟨e, he, -, hsame⟩ | ⟨hrendered, -⟩
  · obtain rfl := Json.object.inj hsame
    have hschema : ("$schema", Json.string d.draft.metaSchema) ∈ d.allMembers := List.mem_cons_self
    have hid : ("$id", Json.string d.id.uri) ∈ d.allMembers :=
      List.mem_cons_of_mem _ List.mem_cons_self
    exact ⟨fun hmem => hunique d.nodup_keys_allMembers hmem hschema, fun hmem =>
      ⟨d.id, List.mem_cons_self, hunique d.nodup_keys_allMembers hid hmem⟩⟩
  · obtain rfl := Json.object.inj hsame
    have hid : ("$id", Json.string e.id.uri) ∈ embeddedMembers d.draft e := List.mem_cons_self
    refine ⟨fun hmem => ?_, fun hmem => ⟨e.id, ?_, ?_⟩⟩
    · have hnot : "$schema" ∉ "$id" :: Node.memberKeys := by decide
      exact absurd ((keys_embeddedMembers d.draft e).subset (List.mem_map_of_mem hmem)) hnot
    · exact List.mem_cons_of_mem _ (List.mem_map_of_mem he)
    · exact hunique (nodup_keys_embeddedMembers d.draft e) hid hmem
  · have hnot : "$schema" ∉ Node.memberKeys ∧ "$id" ∉ Node.memberKeys := by decide
    exact ⟨fun hmem => absurd (hrendered.keys_subset (List.mem_map_of_mem hmem)) hnot.1,
      fun hmem => absurd (hrendered.keys_subset (List.mem_map_of_mem hmem)) hnot.2⟩

/-- Each identifier stands in a schema of the document. -/
lemma exists_position (h : d.Presentable) {id : CanonicalId}
    (hid : id ∈ d.id :: d.definitions.map (·.id)) :
    ∃ path members, SchemaAt (some d.draft) d.toJson path (.object members) ∧
      ("$id", .string id.uri) ∈ members := by
  have hroot : d.toJson = .object d.allMembers := toJson_eq h.nodup_schemaName
  have hplace : placeOf (some d.draft) d.draft.definitionsKeyword = .namedSchemas := by
    simp [placeOf]
  rcases List.mem_cons.mp hid with rfl | hid
  · exact ⟨[], d.allMembers, hroot ▸ .here _, List.mem_cons_of_mem _ List.mem_cons_self⟩
  · obtain ⟨e, he, rfl⟩ := List.mem_map.mp hid
    have hentry : (e.schemaName, Json.object (embeddedMembers d.draft e)) ∈
        d.definitions.map (embed d.draft) :=
      List.mem_map.mpr ⟨e, he, embed_eq⟩
    rw [hroot]
    exact ⟨_, _, .inside (.named hplace (definitions_mem_allMembers he) hentry) (.here _),
      List.mem_cons_self⟩

/-- The meta-schema can object to nothing but the texts of identifiers and of patterns. -/
lemma isSchema_iff_textFits (h : d.Presentable) : isSchema d.draft d.toJson = true ↔
    (∀ id ∈ d.id :: d.definitions.map (·.id),
      textFits d.draft id.uri (keywordForm d.draft "$id") = true) ∧
    ∀ path members text, SchemaAt (some d.draft) d.toJson path (.object members) →
      ("pattern", .string text) ∈ members → textFits d.draft text .pattern = true := by
  have hpattern : keywordForm d.draft "pattern" = .pattern := by
    cases d.draft <;> rfl
  have hschema : textFits d.draft d.draft.metaSchema (keywordForm d.draft "$schema") = true := by
    cases d.draft <;> decide +kernel
  rw [Validation.isSchema_iff h.allWellShaped]
  constructor
  · intro htexts
    refine ⟨fun id hid => ?_, fun path members text hat hmem => ?_⟩
    · obtain ⟨path, members, hat, hmem⟩ := h.exists_position hid
      exact htexts path members hat "$id" id.uri hmem
    · exact hpattern ▸ htexts path members hat "pattern" text hmem
  · rintro ⟨hids, hpatterns⟩ path members hat key text hmem
    by_cases hkey : key ∈ ["$schema", "$id", "$ref", "pattern"]
    · simp only [List.mem_cons, List.not_mem_nil, or_false] at hkey
      rcases hkey with rfl | rfl | rfl | rfl
      · rw [(h.added_text hat).1 hmem]
        exact hschema
      · obtain ⟨id, hid, rfl⟩ := (h.added_text hat).2 hmem
        exact hids id hid
      · obtain ⟨id, hid, rfl⟩ := h.exists_id hat hmem
        exact textFits_ref (hids id hid)
      · exact hpattern ▸ hpatterns path members text hat hmem
    · obtain ⟨members', hsame, hmembers⟩ := h.allWellShaped path _ hat
      obtain rfl := Json.object.inj hsame
      exact Validation.textFits_of_fits (hmembers.fits _ hmem) hkey

/-- What a draft asks of an identifier without a fragment. -/
lemma textFits_id_iff {draft : Draft} (h : lacksFragment text = true) :
    textFits draft text (keywordForm draft "$id") = true ↔
      (draft = .draft07 → isReference text = true) := by
  cases draft with
  | draft07 => exact ⟨fun hfits _ => hfits, fun hfits => hfits rfl⟩
  | draft202012 => exact iff_of_true h nofun

/-- What a draft asks of a pattern. -/
lemma textFits_pattern_iff {draft : Draft} :
    textFits draft text .pattern = true ↔ (draft = .draft07 → isPattern text = true) := by
  cases draft with
  | draft07 => exact ⟨fun hfits _ => hfits, fun hfits => hfits rfl⟩
  | draft202012 => exact iff_of_true rfl nofun

/-- A document of draft 2020-12 is a schema, and one of draft-07 if the meta-schema does not object
to the texts of identifiers and of patterns. -/
lemma isSchema_iff (h : d.Presentable) : isSchema d.draft d.toJson = true ↔ (d.draft = .draft07 →
    (∀ id ∈ d.id :: d.definitions.map (·.id), isReference id.uri = true) ∧
    ∀ path members text, SchemaAt (some d.draft) d.toJson path (.object members) →
      ("pattern", .string text) ∈ members → isPattern text = true) := by
  rw [h.isSchema_iff_textFits]
  constructor
  · rintro ⟨hids, hpatterns⟩ hdraft
    refine ⟨fun id hid => ?_, fun path members text hat hmem => ?_⟩
    · exact (textFits_id_iff (h.unfragmented id hid)).mp (hids id hid) hdraft
    · exact textFits_pattern_iff.mp (hpatterns path members text hat hmem) hdraft
  · intro htexts
    refine ⟨fun id hid => ?_, fun path members text hat hmem => ?_⟩
    · exact (textFits_id_iff (h.unfragmented id hid)).mpr fun hdraft => (htexts hdraft).1 id hid
    · refine textFits_pattern_iff.mpr fun hdraft => ?_
      exact (htexts hdraft).2 path members text hat hmem

/-- A presentable document is structurally valid. -/
theorem structurallyValid (h : d.Presentable) : d.StructurallyValid where
  wellShaped := h.allWellShaped
  identified := fun _ _ hat => h.identified hat
  metaSchema := h.isSchema_iff

end Presentable

end Document

/-! ### Generated documents -/

open Association (keys)

/-- The schema of a type is written with a type or with variants. -/
lemma Configuration.exists_key_link_build (c : Configuration) (t : TypeDescription)
    (f : TypeName → CanonicalId) (draft : Draft) :
    ∃ key ∈ keys (((c.build t).link f).members draft false), key ≠ "$ref" := by
  have hkey : ∀ {k : Keywords} {structural : List Keywords.Member} {key : String},
      key ∈ keys structural → key ∈ keys (k.around structural) := by
    intro k structural key hmem
    simp only [Keywords.around, Node.keys_append, List.mem_append]
    exact Or.inl (Or.inl (Or.inr hmem))
  unfold build
  dsimp only
  split
  · exact ⟨"type", hkey List.mem_cons_self, by decide⟩
  · exact ⟨"type", hkey List.mem_cons_self, by decide⟩
  · exact ⟨"oneOf", hkey List.mem_cons_self, by decide⟩

namespace Generator

variable {g : Generator} {registry : Registry} {root : TypeName} {base : BaseUri} {d : Document}

/-- The identifiers of a document that is read off a sound registry are those of valid names. -/
lemma ReadOff.exists_identifier (hsound : registry.Sound (g.catalog base))
    (h : g.ReadOff registry root d) : ∀ id ∈ d.id :: d.definitions.map (·.id),
      ∃ name, SchemaName.isValid name = true ∧ id = base.identifier name := by
  obtain ⟨e, he, -, ds, hds, rfl⟩ := h
  have hnamed : ∀ e' ∈ registry.definitions,
      ∃ name, SchemaName.isValid name = true ∧ e'.id = base.identifier name := by
    intro e' he'
    obtain ⟨t, ht, rfl⟩ := hsound.canonical e' he'
    exact ⟨t.schemaName, ht.wellFormed.1, rfl⟩
  intro id hid
  rcases List.mem_cons.mp hid with rfl | hid
  · exact hnamed e he
  · obtain ⟨e', he', rfl⟩ := List.mem_map.mp hid
    exact hnamed e' (Registry.mem_of_get? (hds.get?_of_mem e' he')).1

/-- A document that is read off a sound registry is presentable. -/
lemma ReadOff.presentable (hbase : g.config.baseUri = some base) (hparsed : base.IsParsed)
    (hsound : registry.Sound (g.catalog base)) (h : g.ReadOff registry root d) :
    d.Presentable where
  toComplete := h.complete hbase hsound
  proper := by
    intro n hn
    obtain ⟨t, target, ht, rfl⟩ := h.exists_build hsound n hn
    exact Configuration.link_build_proper g.config ht.wellFormed.2 target
  substantial := by
    intro n hn
    obtain ⟨t, target, -, rfl⟩ := h.exists_build hsound n hn
    exact Configuration.exists_key_link_build g.config t target d.draft
  unfragmented := by
    intro id hid
    obtain ⟨name, hname, rfl⟩ := h.exists_identifier hsound id hid
    exact hparsed.lacksFragment_identifier hname

/-- Every document that a run generates under a base that was read from a text, whatever roots came
before, is structurally valid. -/
theorem structurallyValid_document (g : Generator)
    (hparsed : ∀ base ∈ g.config.baseUri, base.IsParsed) (earlier : List TypeName)
    (root : TypeName) (d : Document)
    (h : (g.document (g.registryAfter earlier) root).2.2 = .ok d) : d.StructurallyValid := by
  obtain ⟨base, after, hbase, hsound, hread⟩ := exists_sound_readOff h
  exact (hread.presentable hbase (hparsed base hbase) hsound).structurallyValid

/-- The tree and its label in a unit that asks for draft-07. -/
def grove : CompilationUnit :=
  { forest.unit with
    configurations := [("", { baseUri := some "app://schemas/", draft := some .draft07 })] }

/-- The document of the tree keeps the rules of keywords, and so does the label inside it. -/
theorem structurallyValid_forest : ∃ g d, ofUnit grove = .ok g ∧
    (g.document (g.registryAfter []) (.topLevel "" "Tree")).2.2 = .ok d ∧
      d.definitions.length = 1 ∧ d.StructurallyValid := by
  have hunit : ofUnit grove = .ok
      { unit := grove, config := { baseUri := some ⟨"app://schemas"⟩, draft := .draft07 } } := rfl
  have hparsed := isParsed_of_ofUnit hunit
  exact ⟨_, _, hunit, rfl, rfl,
    structurallyValid_document _ hparsed [] (.topLevel "" "Tree") _ rfl⟩

/-- A type without properties in a unit that asks for draft-07, under a base that is no URI
reference because of the bar. -/
def fenced : CompilationUnit where
  types :=
    [ { name := .topLevel "" "Tree"
        declaration := { name := "Tree", schema := some {} }
        origin := "" } ]
  configurations := [("", { baseUri := some "app://schemas/a|b", draft := some .draft07 })]

/-- There is no pattern in the document of the type, but it is no schema of its draft: its
identifier is no URI reference. -/
theorem not_isSchema_fenced : ∃ g d, ofUnit fenced = .ok g ∧
    (g.document (g.registryAfter []) (.topLevel "" "Tree")).2.2 = .ok d ∧
    d.toJson = .object
      [ ("$schema", .string "http://json-schema.org/draft-07/schema#"),
        ("$id", .string "app://schemas/a|b/Tree.schema.json"),
        ("title", .string "Tree"), ("type", .string "object") ] ∧
    Validation.isSchema d.draft d.toJson = false := by
  have hunit : ofUnit fenced = .ok
      { unit := fenced
        config := { baseUri := some ⟨"app://schemas/a|b"⟩, draft := .draft07 } } := rfl
  exact ⟨_, _, hunit, rfl, rfl, rfl⟩

end Generator

end SchemaCompiler
