import SchemaCompiler.Proofs.Generator.SharedRegistry
import SchemaCompiler.Proofs.Schema.References

/-!
# Documents are self-contained

`Document.SelfContained` says of the JSON value of a document that every reference is resolved
inside it and that no definition is lost: the definitions section has an entry for each definition
under a key of its own, the identifiers in the document are distinct, each reference in a schema
position is one of them, and every entry is met by following references from the root.

The definitions of a document make this true if they are `Document.Complete`, which says the same of
the nodes.  What a generator reads off its registry is complete (`Generator.ReadOff.complete`), so
every document that a run generates is self-contained (`Generator.selfContained_document`).
-/

namespace SchemaCompiler

/-- The definitions section of a document. -/
def Json.definitionsSection (draft : Draft) (document : Json) : List (String × Json) :=
  ((document.get? draft.definitionsKeyword).bind Json.asObject?).getD []

namespace Document

open Association (keys)
open Validation (identifier?)

/-- A schema refers, outside any definitions section, to one that is embedded in the document. -/
def RefersTo (d : Document) (source target : Json) : Prop :=
  (∃ entry ∈ d.toJson.definitionsSection d.draft, entry.2 = target) ∧
    ∃ id ∈ source.schemaRefs none, identifier? target = some id

/-- The references of a document are resolved inside it, and no definition is lost. -/
structure SelfContained (d : Document) : Prop where
  /-- The definitions section has one entry for each definition, each under a key of its own. -/
  entries : d.toJson.definitionsSection d.draft = d.definitions.map (embed d.draft)
  keys : (keys (d.toJson.definitionsSection d.draft)).Nodup
  /-- The document and the definitions have identifiers, which are pairwise distinct. -/
  identified : identifier? d.toJson = some d.id.uri ∧
    (d.toJson.definitionsSection d.draft).map (fun entry => identifier? entry.2) =
      d.definitions.map fun e => some e.id.uri
  distinct : (identifier? d.toJson ::
    (d.toJson.definitionsSection d.draft).map fun entry => identifier? entry.2).Nodup
  /-- A reference leads to the document itself or to exactly one definition. -/
  resolved : ∀ target ∈ d.toJson.schemaRefs (some d.draft), identifier? d.toJson = some target ∨
    ∃! entry, entry ∈ d.toJson.definitionsSection d.draft ∧ identifier? entry.2 = some target
  /-- Every definition is met by following references from the root. -/
  reached : ∀ entry ∈ d.toJson.definitionsSection d.draft,
    Relation.TransGen d.RefersTo d.toJson entry.2

/-- The references of a document are resolved among its definitions, all of which are needed. -/
structure Complete (d : Document) : Prop where
  distinct : (d.id :: d.definitions.map (·.id)).Nodup
  canonical : ∃ base : BaseUri, ∀ e ∈ d.definitions, e.id = base.identifier e.schemaName
  resolved : ∀ node ∈ d.root :: d.definitions.map (·.node), ∀ id ∈ node.targets,
    id = d.id ∨ ∃ e ∈ d.definitions, e.id = id
  /-- What holds of the references of the root and passes along references holds everywhere. -/
  reached : ∀ P : CanonicalId → Prop, (∀ id ∈ d.root.targets, P id) →
    (∀ e ∈ d.definitions, P e.id → ∀ id ∈ e.node.targets, P id) → ∀ e ∈ d.definitions, P e.id

/-! ### The JSON value of a document -/

variable {d : Document} {draft : Draft} {sections : Option Draft} {e : Definition}

/-- What a document holds besides its definitions. -/
def ownMembers (d : Document) : List (String × Json) :=
  [("$schema", .string d.draft.metaSchema), ("$id", .string d.id.uri)] ++
    d.root.members d.draft false

/-- The keys of a document that are no definitions keep their order. -/
lemma keys_ownMembers (d : Document) :
    (keys d.ownMembers).Sublist ("$schema" :: "$id" :: Node.memberKeys) :=
  ((Node.keys_members d.draft d.root false).cons_cons "$id").cons_cons "$schema"

/-- The keys of a document that are no definitions are distinct. -/
lemma nodup_keys_ownMembers (d : Document) : (keys d.ownMembers).Nodup :=
  (d.keys_ownMembers.trans (List.sublist_append_left _ _)).nodup (Node.nodup_memberKeys d.draft)

/-- The key of the definitions section is no other key of a document. -/
lemma definitionsKeyword_not_mem (d : Document) :
    d.draft.definitionsKeyword ∉ keys d.ownMembers := by
  intro hmem
  have hall := Node.nodup_memberKeys d.draft
  have hkey := d.keys_ownMembers.subset hmem
  exact (List.nodup_append.mp hall).2.2 _ hkey _ List.mem_cons_self rfl

/-- The members of an embedded definition come after its identifier. -/
lemma embed_eq : embed draft e =
    (e.schemaName, .object (("$id", .string e.id.uri) :: e.node.members draft false)) := by
  have hkeys : (keys ([("$id", .string e.id.uri)] ++ e.node.members draft false)).Nodup := by
    have hsub : ("$id" :: keys (e.node.members draft false)).Sublist
        ("$schema" :: "$id" :: Node.memberKeys ++ [draft.definitionsKeyword]) := by
      refine ((Node.keys_members draft e.node false).cons_cons "$id").trans ?_
      exact (List.sublist_append_left ("$id" :: Node.memberKeys) _).cons "$schema"
    exact hsub.nodup (Node.nodup_memberKeys draft)
  rw [embed, Association.insertAll_of_nodup hkeys]
  rfl

/-- The definitions come at the end, if there are any. -/
lemma toJson_eq (hnames : (d.definitions.map (·.schemaName)).Nodup) : d.toJson = .object
    (d.ownMembers ++
      if d.definitions.isEmpty then []
      else [(d.draft.definitionsKeyword, .object (d.definitions.map (embed d.draft)))]) := by
  have hentries : (keys ([] ++ d.definitions.map (embed d.draft))).Nodup := by
    simpa [keys, List.map_map, Function.comp_def, embed] using hnames
  unfold toJson
  dsimp only
  rw [Association.insertAll_of_nodup d.nodup_keys_ownMembers]
  split
  · rw [List.append_nil]
    rfl
  · rw [Association.ofPairs, Association.insertAll_of_nodup hentries]
    exact congrArg Json.object (Association.insert_of_not_mem d.definitionsKeyword_not_mem)

/-- The document carries its identifier. -/
lemma identifier?_toJson (hnames : (d.definitions.map (·.schemaName)).Nodup) :
    identifier? d.toJson = some d.id.uri := by
  have hne : ("$id" == "$schema") = false := by decide
  simp [identifier?, toJson_eq hnames, ownMembers, Json.get?, List.lookup_cons, hne, Json.asString?]

/-- An embedded definition carries its identifier. -/
lemma identifier?_embed : identifier? (embed draft e).2 = some e.id.uri := by
  simp [identifier?, embed_eq, Json.get?, Json.asString?]

/-- The definitions section holds the definitions, and nothing is read where there are none. -/
lemma definitionsSection_toJson (hnames : (d.definitions.map (·.schemaName)).Nodup) :
    d.toJson.definitionsSection d.draft = d.definitions.map (embed d.draft) := by
  have hlookup : d.ownMembers.lookup d.draft.definitionsKeyword = none := by
    refine List.lookup_eq_none_iff.mpr fun member hmember => bne_iff_ne.mpr fun heq => ?_
    exact d.definitionsKeyword_not_mem (heq ▸ List.mem_map_of_mem hmember)
  rw [toJson_eq hnames, Json.definitionsSection, Json.get?, List.lookup_append, hlookup,
    Option.none_or]
  cases d.definitions with
  | nil => rfl
  | cons e rest => simp [Json.asObject?]

/-- What a document adds to its root is no schema, except for the definitions. -/
lemma placeOf_added (sections : Option Draft) :
    Json.placeOf sections "$schema" = .data ∧ Json.placeOf sections "$id" = .data := by
  cases sections with
  | none => decide
  | some draft => cases draft <;> decide

/-- The references of an embedded definition are the targets of its node. -/
lemma schemaRefs_embed :
    (embed draft e).2.schemaRefs sections = e.node.targets.map (·.uri) := by
  rw [embed_eq, Json.schemaRefs, Json.schemaRefsOfMembers_cons_of_data (placeOf_added sections).2,
    Node.schemaRefs_members]

/-- The references of a document besides its definitions are the targets of its root. -/
lemma schemaRefsOfMembers_ownMembers :
    Json.schemaRefsOfMembers sections d.ownMembers = d.root.targets.map (·.uri) := by
  rw [ownMembers, List.cons_append, List.cons_append, List.nil_append,
    Json.schemaRefsOfMembers_cons_of_data (placeOf_added sections).1,
    Json.schemaRefsOfMembers_cons_of_data (placeOf_added sections).2, Node.schemaRefs_members]

/-- The references of a document outside its definitions section are the targets of its root. -/
lemma schemaRefs_toJson (hnames : (d.definitions.map (·.schemaName)).Nodup) :
    d.toJson.schemaRefs none = d.root.targets.map (·.uri) := by
  have hsection : Json.placeOf none d.draft.definitionsKeyword = .data := by
    cases d.draft <;> decide
  rw [toJson_eq hnames, Json.schemaRefs, Json.schemaRefsOfMembers_append,
    schemaRefsOfMembers_ownMembers]
  split
  · exact List.append_nil _
  · rw [Json.schemaRefsOfMembers_cons_of_data hsection]
    exact List.append_nil _

/-- The references of a whole document are the targets of its root and of its definitions. -/
lemma schemaRefs_toJson_some (hnames : (d.definitions.map (·.schemaName)).Nodup) :
    d.toJson.schemaRefs (some d.draft) =
      (d.root :: d.definitions.map (·.node)).flatMap fun node => node.targets.map (·.uri) := by
  have hsection : Json.placeOf (some d.draft) d.draft.definitionsKeyword = .namedSchemas := by
    simp [Json.placeOf]
  rw [toJson_eq hnames, Json.schemaRefs, Json.schemaRefsOfMembers_append,
    schemaRefsOfMembers_ownMembers, List.flatMap_cons, List.flatMap_map]
  split
  · next hempty =>
    rw [List.isEmpty_iff.mp hempty]
    rfl
  · simp [Json.schemaRefsOfMembers, hsection, Json.schemaRefsOfMap, Json.schemaRefsOfValues_eq,
      List.flatMap_map, schemaRefs_embed]

/-! ### Complete documents -/

/-- The schema names of the definitions are distinct if their identifiers are. -/
lemma Complete.nodup_schemaName (h : d.Complete) : (d.definitions.map (·.schemaName)).Nodup := by
  obtain ⟨base, hbase⟩ := h.canonical
  have hids : (d.definitions.map (·.id)).Nodup := (List.nodup_cons.mp h.distinct).2
  have heq : d.definitions.map (·.id) = (d.definitions.map (·.schemaName)).map base.identifier := by
    rw [List.map_map]
    exact List.map_congr_left hbase
  rw [heq] at hids
  exact hids.of_map _

/-- Identifiers are told apart by their texts. -/
lemma some_uri_injective : Function.Injective fun id : CanonicalId => some id.uri := by
  intro first second heq
  cases first
  cases second
  simpa using heq

namespace Complete

/-- The identifier of a definition is that of exactly one embedded definition. -/
lemma existsUnique_entry (h : d.Complete) (he : e ∈ d.definitions) :
    ∃! entry, entry ∈ d.toJson.definitionsSection d.draft ∧
      identifier? entry.2 = some e.id.uri := by
  have hids : (d.definitions.map (·.id)).Nodup := (List.nodup_cons.mp h.distinct).2
  rw [definitionsSection_toJson h.nodup_schemaName]
  refine ⟨embed d.draft e, ⟨List.mem_map_of_mem he, identifier?_embed⟩, ?_⟩
  rintro entry ⟨hentry, hsame⟩
  obtain ⟨e', he', rfl⟩ := List.mem_map.mp hentry
  rw [identifier?_embed] at hsame
  rw [List.inj_on_of_nodup_map hids he' he (some_uri_injective hsame)]

/-- A schema with the identifier of a definition among its references refers to the definition. -/
lemma refersTo (h : d.Complete) {source : Json} (he : e ∈ d.definitions)
    (hmem : e.id.uri ∈ source.schemaRefs none) : d.RefersTo source (embed d.draft e).2 := by
  refine ⟨⟨embed d.draft e, ?_, rfl⟩, _, hmem, identifier?_embed⟩
  rw [definitionsSection_toJson h.nodup_schemaName]
  exact List.mem_map_of_mem he

/-- Every definition is met by following references from the root. -/
lemma transGen_refersTo (h : d.Complete) (he : e ∈ d.definitions) :
    Relation.TransGen d.RefersTo d.toJson (embed d.draft e).2 := by
  refine h.reached (fun id => ∀ e ∈ d.definitions, e.id = id →
    Relation.TransGen d.RefersTo d.toJson (embed d.draft e).2) ?_ ?_ e he e he rfl
  · rintro id hmem e he rfl
    refine .single (h.refersTo he ?_)
    rw [schemaRefs_toJson h.nodup_schemaName]
    exact List.mem_map_of_mem hmem
  · rintro source hsource hreached id hmem e he rfl
    refine (hreached source hsource rfl).tail (h.refersTo he ?_)
    rw [schemaRefs_embed]
    exact List.mem_map_of_mem hmem

/-- The JSON value of a complete document is self-contained. -/
theorem selfContained (h : d.Complete) : d.SelfContained := by
  have hnames := h.nodup_schemaName
  have hentries := definitionsSection_toJson hnames
  have hid := identifier?_toJson hnames
  have hids : (d.toJson.definitionsSection d.draft).map (fun entry => identifier? entry.2) =
      d.definitions.map fun e => some e.id.uri := by
    rw [hentries, List.map_map]
    exact List.map_congr_left fun e _ => identifier?_embed
  refine ⟨hentries, ?_, ⟨hid, hids⟩, ?_, ?_, ?_⟩
  · have hkeys : keys (d.definitions.map (embed d.draft)) = d.definitions.map (·.schemaName) := by
      rw [Association.keys, List.map_map]
      rfl
    rw [hentries, hkeys]
    exact hnames
  · have hdistinct := h.distinct.map some_uri_injective
    rw [hid, hids]
    simpa [List.map_map, Function.comp_def] using hdistinct
  · intro target htarget
    rw [schemaRefs_toJson_some hnames] at htarget
    obtain ⟨node, hnode, htarget⟩ := List.mem_flatMap.mp htarget
    obtain ⟨id, hmem, rfl⟩ := List.mem_map.mp htarget
    rcases h.resolved node hnode id hmem with rfl | ⟨e, he, rfl⟩
    · exact Or.inl hid
    · exact Or.inr (h.existsUnique_entry he)
  · intro entry hentry
    rw [hentries] at hentry
    obtain ⟨e, he, rfl⟩ := List.mem_map.mp hentry
    exact h.transGen_refersTo he

end Complete

end Document

namespace Generator

variable {g : Generator} {registry : Registry} {root : TypeName} {base : BaseUri} {d : Document}

/-- A document that is read off a sound registry is complete. -/
theorem ReadOff.complete (hbase : g.config.baseUri = some base)
    (hsound : registry.Sound (g.catalog base)) (h : g.ReadOff registry root d) : d.Complete := by
  obtain ⟨e, he, -, ds, hds, rfl⟩ := h
  have hmem : ∀ e' ∈ ds, e' ∈ registry.definitions :=
    fun e' he' => (Registry.mem_of_get? (hds.get?_of_mem e' he')).1
  have htargets : ∀ e' ∈ registry.definitions, ∀ id, id ∈ e'.references ↔ id ∈ e'.node.targets :=
    fun e' he' => (keeps_of_sound hbase hsound he').mem_references
  obtain ⟨hnodup, hnew⟩ := hds.nodup
  obtain ⟨hpending, hclosed⟩ := hds.closed
  refine ⟨?_, ⟨base, fun e' he' => ?_⟩, ?_, ?_⟩
  · refine List.nodup_cons.mpr ⟨fun hid => ?_, hnodup⟩
    obtain ⟨e', he', heq⟩ := List.mem_map.mp hid
    exact hnew e' he' (heq ▸ List.mem_cons_self)
  · obtain ⟨t, -, rfl⟩ := hsound.canonical e' (hmem e' he')
    rfl
  · intro node hnode id hid
    have hfound : id ∈ [e.id] ∨ ∃ e' ∈ ds, e'.id = id := by
      rcases List.mem_cons.mp hnode with rfl | hnode
      · exact hpending id ((htargets e he id).mpr hid)
      · obtain ⟨e', he', rfl⟩ := List.mem_map.mp hnode
        exact hclosed e' he' id ((htargets e' (hmem e' he') id).mpr hid)
    exact hfound.imp_left List.mem_singleton.mp
  · intro P hroot hstep
    refine hds.forall_mem (fun id hid => hroot id ((htargets e he id).mp hid)) ?_
    intro e' he' hP id hid
    exact hstep e' he' hP id ((htargets e' (hmem e' he') id).mp hid)

/-- Every document that a run generates, whatever roots came before, is self-contained. -/
theorem selfContained_document (g : Generator) (earlier : List TypeName) (root : TypeName)
    (d : Document) (h : (g.document (g.registryAfter earlier) root).2.2 = .ok d) :
    d.SelfContained := by
  obtain ⟨base, graph, walk, hprepared, -⟩ := exists_walk h
  have hsound := sound_registryAfter hprepared.base earlier
  have hread := readOff_of_document hprepared.base hsound h
  exact (hread.complete hprepared.base (sound_document hprepared.base hsound root)).selfContained

/-- A tree refers to itself and to its label, which is the one definition that its document embeds.
-/
theorem selfContained_forest : ∃ d,
    (forest.document (forest.registryAfter [.topLevel "" "Label"]) (.topLevel "" "Tree")).2.2 =
        .ok d ∧
      d.definitions.length = 1 ∧ d.SelfContained :=
  ⟨_, rfl, rfl, selfContained_document forest [.topLevel "" "Label"] (.topLevel "" "Tree") _ rfl⟩

end Generator

end SchemaCompiler
