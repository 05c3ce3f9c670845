import SchemaCompiler.Proofs.Document.SelfContained
import SchemaCompiler.Proofs.Schema.Built
import SchemaCompiler.Proofs.TypeGraph.Exploration
import SchemaCompiler.Proofs.Validation.References

/-!
# The reference stage of the check

Before a document is published, every text under `$ref` in its JSON value has to lead to a schema
that the document embeds.  `Document.ReferenceStage` says which texts these are and when the stage
lets a document pass.  The texts are the targets of the references that are met without entering a
property called `$ref`, and what looks like a reference inside a default.

So the stage does not see every reference of a document, and it rejects a document for a default
that is no schema at all (`Generator.quotingLink_rejected`).  Every reference that it does see leads
into the document, so defaults are its only reason to reject one
(`Generator.referenceStage_document`).
-/

namespace SchemaCompiler

namespace Document

/-- The schemas of a document. -/
def nodes (d : Document) : List Node := d.root :: d.definitions.map (·.node)

/-- The targets of the references that are met without entering a property called `$ref`. -/
def met (d : Document) : List CanonicalId :=
  d.nodes.flatMap fun n => (n.parts Node.isSearched).flatMap (·.target?.toList)

/-- What looks like a reference in the defaults that are met. -/
def quoted (d : Document) : List String :=
  d.nodes.flatMap fun n => (n.parts Node.isSearched).flatMap fun m =>
    (m.keywords?.bind (·.defaultValue)).toList.flatMap Json.references

/-- What the reference stage of the check does with a document. -/
structure ReferenceStage (d : Document) : Prop where
  /-- What is found is the target of a reference that is met, or looks like one in a default. -/
  finds : ∀ text, text ∈ d.toJson.references ↔ (∃ id ∈ d.met, id.uri = text) ∨ text ∈ d.quoted
  /-- What is found is what the document refers to exactly if each of its references is found and
  no default quotes anything else. -/
  agrees : (∀ text, text ∈ d.toJson.references ↔ ∃ n ∈ d.nodes, ∃ id ∈ n.targets, id.uri = text) ↔
    (∀ n ∈ d.nodes, ∀ id ∈ n.targets, id ∈ d.met ∨ id.uri ∈ d.quoted) ∧
      ∀ text ∈ d.quoted, ∃ n ∈ d.nodes, ∃ id ∈ n.targets, id.uri = text
  /-- The stage lets the document pass exactly if what the defaults quote is a fragment or the
  identifier of the document or of a definition. -/
  passes : Validation.dangling d.draft d.toJson = [] ↔
    ∀ text ∈ d.quoted, text.toList.head? = some '#' ∨
      ∃ id ∈ d.id :: d.definitions.map (·.id), id.uri = text

variable {d : Document} {draft : Draft} {e : Definition} {text : String}

/-! ### The texts that are found -/

/-- In an embedded definition the search finds what it finds in its node. -/
lemma mem_references_embed : text ∈ (embed draft e).2.references ↔ text ∈ e.node.found := by
  rw [embed_eq, Json.references, Json.referencesOfMembers_cons_of_ne (by decide), Json.references,
    List.nil_append, Node.mem_references_members]

/-- Under names other than `$ref` the search finds what it finds in the definitions. -/
lemma mem_references_definitions {es : List Definition} (h : ∀ e ∈ es, e.schemaName ≠ "$ref") :
    text ∈ Json.referencesOfMembers (es.map (embed draft)) ↔ ∃ e ∈ es, text ∈ e.node.found := by
  induction es with
  | nil => simp [Json.referencesOfMembers]
  | cons e es ih =>
    obtain ⟨hname, hrest⟩ := List.forall_mem_cons.mp h
    have hkey : (embed draft e).1 ≠ "$ref" := hname
    rw [List.map_cons, Json.referencesOfMembers_cons_of_ne hkey, List.mem_append, ih hrest,
      mem_references_embed, List.exists_mem_cons_iff]

/-- In a document the search finds what it finds in its schemas. -/
lemma mem_references_toJson (hnames : (d.definitions.map (·.schemaName)).Nodup)
    (hvalid : ∀ e ∈ d.definitions, e.schemaName ≠ "$ref") :
    text ∈ d.toJson.references ↔ ∃ n ∈ d.nodes, text ∈ n.found := by
  have hown : text ∈ Json.referencesOfMembers d.ownMembers ↔ text ∈ d.root.found := by
    rw [ownMembers, List.cons_append, List.cons_append, List.nil_append,
      Json.referencesOfMembers_cons_of_ne (by decide), Json.references, List.nil_append,
      Json.referencesOfMembers_cons_of_ne (by decide), Json.references, List.nil_append,
      Node.mem_references_members]
  have hkey : d.draft.definitionsKeyword ≠ "$ref" := by
    cases d.draft <;> decide
  rw [toJson_eq hnames, Json.references, Json.referencesOfMembers_append, List.mem_append, hown,
    nodes, List.exists_mem_cons_iff]
  refine or_congr_right ?_
  split
  · next hempty =>
    rw [List.isEmpty_iff.mp hempty]
    simp [Json.referencesOfMembers]
  · rw [Json.referencesOfMembers_cons_of_ne hkey, Json.references, Json.referencesOfMembers,
      List.append_nil, mem_references_definitions hvalid]
    simp

/-! ### Documents with sound schemas -/

/-- There is nothing to find in a boolean or a text. -/
lemma references_of_isPlain {value : Json} (h : value.IsPlain) : value.references = [] := by
  cases value with
  | bool | string => rfl
  | _ => cases h

/-- A sound schema is written with its target and with what its default quotes. -/
lemma mem_written {m : Node} (h : m.Sound) :
    text ∈ m.written ↔ (∃ id ∈ m.target?, id.uri = text) ∨
      text ∈ (m.keywords?.bind (·.defaultValue)).toList.flatMap Json.references := by
  have hquoted : ∀ k, m.keywords? = some k →
      k.quoted = k.defaultValue.toList.flatMap Json.references := by
    intro k hk
    have hconstant : k.constant.toList.flatMap Json.references = [] := by
      refine List.flatMap_eq_nil_iff.mpr fun value hvalue => ?_
      exact references_of_isPlain (h.constant k hk value (Option.mem_toList.mp hvalue))
    rw [Keywords.quoted, List.flatMap_append, hconstant, List.nil_append]
  rw [Node.written, List.mem_append]
  refine or_congr (by simp) ?_
  cases hk : m.keywords? with
  | none => simp
  | some k => simp [hquoted k hk]

/-- What the search finds in sound schemas are targets that are met and what defaults quote. -/
lemma exists_mem_found_iff (hsound : ∀ n ∈ d.nodes, n.All Node.Sound) :
    (∃ n ∈ d.nodes, text ∈ n.found) ↔ (∃ id ∈ d.met, id.uri = text) ∨ text ∈ d.quoted := by
  have hfound : ∀ n ∈ d.nodes, text ∈ n.found ↔
      (∃ m ∈ n.parts Node.isSearched, ∃ id ∈ m.target?, id.uri = text) ∨
        ∃ m ∈ n.parts Node.isSearched,
          text ∈ (m.keywords?.bind (·.defaultValue)).toList.flatMap Json.references := by
    intro n hn
    rw [Node.found, List.mem_flatMap, ← exists_or]
    refine exists_congr fun m => ?_
    rw [← and_or_left]
    exact and_congr_right fun hm => mem_written (hsound n hn m (Node.mem_parts_of_mem n hm))
  constructor
  · rintro ⟨n, hn, htext⟩
    rcases (hfound n hn).mp htext with ⟨m, hm, id, hid, rfl⟩ | ⟨m, hm, htext⟩
    · refine Or.inl ⟨id, List.mem_flatMap.mpr ⟨n, hn, List.mem_flatMap.mpr ⟨m, hm, ?_⟩⟩, rfl⟩
      exact Option.mem_toList.mpr hid
    · exact Or.inr (List.mem_flatMap.mpr ⟨n, hn, List.mem_flatMap.mpr ⟨m, hm, htext⟩⟩)
  · rintro (⟨id, hid, rfl⟩ | htext)
    · obtain ⟨n, hn, hid⟩ := List.mem_flatMap.mp hid
      obtain ⟨m, hm, hid⟩ := List.mem_flatMap.mp hid
      exact ⟨n, hn, (hfound n hn).mpr (Or.inl ⟨m, hm, id, Option.mem_toList.mp hid, rfl⟩)⟩
    · obtain ⟨n, hn, htext⟩ := List.mem_flatMap.mp htext
      obtain ⟨m, hm, htext⟩ := List.mem_flatMap.mp htext
      exact ⟨n, hn, (hfound n hn).mpr (Or.inr ⟨m, hm, htext⟩)⟩

/-- A target that is met is a target of a schema. -/
lemma exists_of_mem_met {id : CanonicalId} (h : id ∈ d.met) : ∃ n ∈ d.nodes, id ∈ n.targets := by
  obtain ⟨n, hn, hid⟩ := List.mem_flatMap.mp h
  obtain ⟨m, hm, hid⟩ := List.mem_flatMap.mp hid
  refine ⟨n, hn, (Node.mem_targets_iff id n).mpr ⟨m, Node.mem_parts_of_mem n hm, ?_⟩⟩
  exact Option.mem_toList.mp hid

/-- Identifiers are told apart by their texts. -/
lemma eq_of_uri_eq {id other : CanonicalId} (h : id.uri = other.uri) : id = other := by
  cases id
  cases other
  exact congrArg CanonicalId.mk h

/-- The identifiers under which schemas are embedded in a complete document. -/
lemma Complete.embedded_eq (h : d.Complete) :
    (Validation.embedded d.draft d.toJson).map (·.1) =
      (d.id :: d.definitions.map (·.id)).map (·.uri) := by
  have hnames := h.nodup_schemaName
  have hid := identifier?_toJson hnames
  have hsection : ((d.toJson.get? d.draft.definitionsKeyword).bind Json.asObject?).getD [] =
      d.definitions.map (embed d.draft) := definitionsSection_toJson hnames
  have hdefinitions : ∀ es : List Definition,
      (((es.map (embed d.draft)).map (·.2)).filterMap fun schema =>
        (Validation.identifier? schema).map fun id => (id, schema)).map (·.1) =
          es.map (·.id.uri) := by
    intro es
    simp [List.filterMap_map, Function.comp_def, identifier?_embed]
  unfold Validation.embedded
  dsimp only
  rw [hsection, List.filterMap_cons, hid, Option.map_some, List.map_cons, hdefinitions]
  simp

/-- The stage lets a document pass if what the search finds is a fragment or an identifier. -/
lemma Complete.dangling_eq_nil_iff (h : d.Complete) :
    Validation.dangling d.draft d.toJson = [] ↔ ∀ text ∈ d.toJson.references,
      text.toList.head? = some '#' ∨ ∃ id ∈ d.id :: d.definitions.map (·.id), id.uri = text := by
  unfold Validation.dangling
  dsimp only
  rw [h.embedded_eq, List.filter_eq_nil_iff]
  refine forall₂_congr fun text _ => ?_
  rw [Bool.and_eq_true, not_and_or, bne_iff_ne, not_not, Bool.not_eq_true', Bool.not_eq_false,
    List.contains_iff_mem, List.mem_map]

/-- What the reference stage does with a complete document whose schemas are sound. -/
theorem Complete.referenceStage (h : d.Complete) (hsound : ∀ n ∈ d.nodes, n.All Node.Sound)
    (hvalid : ∀ e ∈ d.definitions, e.schemaName ≠ "$ref") : d.ReferenceStage := by
  have hfinds : ∀ text,
      text ∈ d.toJson.references ↔ (∃ id ∈ d.met, id.uri = text) ∨ text ∈ d.quoted := by
    intro text
    rw [mem_references_toJson h.nodup_schemaName hvalid, exists_mem_found_iff hsound]
  refine ⟨hfinds, ⟨fun hall => ⟨?_, ?_⟩, ?_⟩, ?_⟩
  · intro n hn id hid
    rcases (hfinds id.uri).mp ((hall id.uri).mpr ⟨n, hn, id, hid, rfl⟩) with ⟨other, hmet, heq⟩ | hq
    · exact Or.inl (eq_of_uri_eq heq ▸ hmet)
    · exact Or.inr hq
  · intro text hquoted
    exact (hall text).mp ((hfinds text).mpr (Or.inr hquoted))
  · rintro ⟨htargets, hquoted⟩ text
    rw [hfinds]
    constructor
    · rintro (⟨id, hmet, rfl⟩ | htext)
      · obtain ⟨n, hn, hid⟩ := exists_of_mem_met hmet
        exact ⟨n, hn, id, hid, rfl⟩
      · exact hquoted text htext
    · rintro ⟨n, hn, id, hid, rfl⟩
      rcases htargets n hn id hid with hmet | htext
      · exact Or.inl ⟨id, hmet, rfl⟩
      · exact Or.inr htext
  · rw [h.dangling_eq_nil_iff]
    constructor
    · intro hall text hquoted
      exact hall text ((hfinds text).mpr (Or.inr hquoted))
    · intro hall text htext
      rcases (hfinds text).mp htext with ⟨id, hmet, rfl⟩ | hquoted
      · -- A reference of a complete document is resolved inside it.
        obtain ⟨n, hn, hid⟩ := exists_of_mem_met hmet
        refine Or.inr ⟨id, ?_, rfl⟩
        rcases h.resolved n hn id hid with rfl | ⟨e, he, rfl⟩
        · exact List.mem_cons_self
        · exact List.mem_cons_of_mem _ (List.mem_map_of_mem he)
      · exact hall text hquoted

end Document

/-! ### Generated documents -/

namespace Generator

variable {g : Generator} {registry : Registry} {root : TypeName} {base : BaseUri} {d : Document}

/-- The schemas of a document that is read off a sound registry are linked from those of types. -/
lemma ReadOff.exists_build (hsound : registry.Sound (g.catalog base))
    (h : g.ReadOff registry root d) : ∀ n ∈ d.nodes, ∃ t target,
      g.source.Describes t ∧ n = (g.config.build t).link target := by
  obtain ⟨e, he, -, ds, hds, rfl⟩ := h
  have hbuilt : ∀ e' ∈ registry.definitions, ∃ t target,
      g.source.Describes t ∧ e'.node = (g.config.build t).link target := by
    intro e' he'
    obtain ⟨t, ht, rfl⟩ := hsound.canonical e' he'
    exact ⟨t, (g.catalog base).identifierOf, ht, rfl⟩
  intro n hn
  rcases List.mem_cons.mp hn with rfl | hn
  · exact hbuilt e he
  · obtain ⟨e', he', rfl⟩ := List.mem_map.mp hn
    exact hbuilt e' (Registry.mem_of_get? (hds.get?_of_mem e' he')).1

/-- The definitions of a document that is read off a sound registry have valid schema names. -/
lemma ReadOff.isValid_schemaName (hsound : registry.Sound (g.catalog base))
    (h : g.ReadOff registry root d) :
    ∀ e ∈ d.definitions, SchemaName.isValid e.schemaName = true := by
  obtain ⟨_, -, -, ds, hds, rfl⟩ := h
  intro e he
  obtain ⟨t, ht, rfl⟩ := hsound.canonical e (Registry.mem_of_get? (hds.get?_of_mem e he)).1
  exact ht.wellFormed.1

/-- What the reference stage does with any document that a run generates. -/
theorem referenceStage_document (g : Generator) (earlier : List TypeName) (root : TypeName)
    (d : Document) (h : (g.document (g.registryAfter earlier) root).2.2 = .ok d) :
    d.ReferenceStage := by
  obtain ⟨base, graph, walk, hprepared, -⟩ := exists_walk h
  have hbefore := sound_registryAfter hprepared.base earlier
  have hafter := sound_document hprepared.base hbefore root
  have hread := readOff_of_document hprepared.base hbefore h
  refine (hread.complete hprepared.base hafter).referenceStage ?_ ?_
  · intro n hn
    obtain ⟨t, target, -, rfl⟩ := hread.exists_build hafter n hn
    exact Configuration.link_build_sound g.config t target
  · rintro e he hname
    have hvalid := hread.isValid_schemaName hafter e he
    rw [hname] at hvalid
    exact absurd hvalid (by decide)

/-- A link with a default that looks like a reference, and with a property of a declared type that
is called like the keyword. -/
def quotingLink : Generator where
  unit :=
    { types :=
      [ { name := .topLevel "" "Link"
          declaration :=
            { name := "Link"
              properties :=
                [ { name := "target", type := .scalar .string,
                    defaultValue := some (.object [("$ref", .string "nowhere")]) },
                  { name := "$ref", type := .named "Label" } ] }
          origin := "" },
        { name := .topLevel "" "Label", declaration := { name := "Label" }, origin := "" } ] }
  config := { baseUri := some ⟨"https://example.com"⟩ }

/-- The link is rejected for the default, while its reference to the label is not looked at. -/
theorem quotingLink_rejected : ∃ d,
    (quotingLink.document (quotingLink.registryAfter []) (.topLevel "" "Link")).2.2 = .ok d ∧
      d.ReferenceStage ∧
      d.check = .error (.selfValidation "Link" (.danglingReference "nowhere")) ∧
      d.root.targets = [⟨"https://example.com/Label.schema.json"⟩] ∧
      d.toJson.references = ["nowhere"] :=
  ⟨_, rfl, referenceStage_document quotingLink [] (.topLevel "" "Link") _ rfl, rfl, rfl, rfl⟩

end Generator

end SchemaCompiler
