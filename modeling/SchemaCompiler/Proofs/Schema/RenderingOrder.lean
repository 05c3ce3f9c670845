import SchemaCompiler.Json.Printer
import SchemaCompiler.Proofs.FirstMention
import SchemaCompiler.Proofs.Schema.Drafts

/-!
# References in the order of the text

The references of a schema node are listed as its text shows them: in the order in which the `$ref`s
stand in the written schema, repetitions left out (`Node.references_follow_text`).

`Json.schemaRefs` reads a JSON schema member after member.  `InTurn` says of a text that some words
stand in it one after another, and `Json.Layout` of a printer that it writes the items of a list and
the members of an object in their order.  What is read in some order therefore stands in that order
in the text, whichever printer writes it (`Json.Layout.inTurn_schemaRefs`).
-/

namespace SchemaCompiler

/-! ### Words of a text -/

/-- Some words stand in a text one after another. -/
inductive InTurn : List String → String → Prop
  | nil (text : String) : InTurn [] text
  | cons {word : String} {words : List String} (before : String) {after : String}
      (h : InTurn words after) : InTurn (word :: words) (before ++ word ++ after)

namespace InTurn

variable {words more : List String} {text other : String}

/-- What stands before a text changes nothing. -/
lemma prepend (before : String) (h : InTurn words text) : InTurn words (before ++ text) := by
  cases h with
  | nil => exact .nil _
  | cons start h =>
    rw [← String.append_assoc, ← String.append_assoc]
    exact .cons (before ++ start) h

/-- Words of two texts stand in turn in the texts one after the other. -/
lemma append (h : InTurn words text) (h' : InTurn more other) :
    InTurn (words ++ more) (text ++ other) := by
  induction h with
  | nil => exact h'.prepend _
  | cons before _ ih =>
    rw [String.append_assoc]
    exact .cons before ih

/-- What stands after a text changes nothing. -/
lemma extend (after : String) (h : InTurn words text) : InTurn words (text ++ after) := by
  rw [← List.append_nil words]
  exact h.append (.nil after)

/-- A word stands in itself. -/
lemma word (word : String) : InTurn [word] word := by
  have h : InTurn [word] ("" ++ word ++ "") := .cons "" (.nil "")
  rwa [String.empty_append, String.append_empty] at h

/-- Words of several texts stand in turn in the joined texts. -/
lemma intercalate {α : Type} {words : α → List String} {text : α → String} {xs : List α}
    (separator : String) (h : ∀ x ∈ xs, InTurn (words x) (text x)) :
    InTurn (xs.flatMap words) (separator.intercalate (xs.map text)) := by
  induction xs with
  | nil => exact .nil _
  | cons x xs ih =>
    obtain ⟨hx, hxs⟩ := List.forall_mem_cons.mp h
    rw [List.flatMap_cons, List.map_cons]
    cases xs with
    | nil =>
      rw [List.flatMap_nil, List.append_nil, List.map_nil, String.intercalate_singleton]
      exact hx
    | cons y ys =>
      have hrest := ih hxs
      rw [List.map_cons] at hrest
      rw [List.map_cons, String.intercalate_cons_cons]
      exact (hx.extend separator).append hrest

end InTurn

namespace Json

variable (sections : Option Draft)

/-! ### Reading member after member -/

/-- The references in a member of a schema. -/
def memberRefs (member : String × Json) : List String :=
  match placeOf sections member.1 with
  | .reference => member.2.asString?.toList
  | place => (place.contents member.2).flatMap (schemaRefs sections)

variable {sections}

/-- The references in the schemas of a list are those of its elements. -/
lemma schemaRefsOfItems_eq (items : List Json) :
    schemaRefsOfItems sections items = items.flatMap (schemaRefs sections) := by
  induction items with
  | nil => rfl
  | cons item items ih => rw [schemaRefsOfItems, ih, List.flatMap_cons]

/-- The references of a schema are those in its members, in order. -/
lemma schemaRefsOfMembers_eq (members : List (String × Json)) :
    schemaRefsOfMembers sections members = members.flatMap (memberRefs sections) := by
  induction members with
  | nil => rfl
  | cons member members ih =>
    obtain ⟨key, value⟩ := member
    rw [schemaRefsOfMembers, ih, List.flatMap_cons, memberRefs]
    congr 1
    cases placeOf sections key with
    | reference => rfl
    | schema => exact (List.append_nil _).symm
    | schemas =>
      cases value with
      | array items => exact schemaRefsOfItems_eq items
      | null | bool | number | string | object => rfl
    | namedSchemas =>
      cases value with
      | object entries =>
        dsimp only [Place.contents]
        rw [schemaRefsOfMap, schemaRefsOfValues_eq, List.flatMap_map]
      | null | bool | number | string | array => rfl
    | data => rfl

/-- A reference in a member stands there itself, or in a schema that the member holds. -/
lemma mem_memberRefs {member : String × Json} {text : String}
    (h : text ∈ memberRefs sections member) :
    (placeOf sections member.1 = .reference ∧ member.2 = string text) ∨
      ∃ s ∈ (placeOf sections member.1).contents member.2, text ∈ schemaRefs sections s := by
  unfold memberRefs at h
  split at h
  · next hplace =>
    refine Or.inl ⟨hplace, ?_⟩
    cases hvalue : member.2 <;> simp [hvalue, asString?] at h
    rw [h]
  · exact Or.inr (List.mem_flatMap.mp h)

/-- What is read are the references that stand in a schema position. -/
theorem mem_schemaRefs_iff {v : Json} {text : String} : text ∈ schemaRefs none v ↔
    ∃ path members, SchemaAt none v path (object members) ∧ ("$ref", string text) ∈ members := by
  constructor
  · intro htext
    induction hsize : sizeOf v using Nat.strongRecOn generalizing v with
    | ind size ih =>
      cases v with
      | object members =>
        rw [schemaRefs, schemaRefsOfMembers_eq] at htext
        obtain ⟨⟨key, value⟩, hmem, htext⟩ := List.mem_flatMap.mp htext
        rcases mem_memberRefs htext with ⟨hplace, hvalue⟩ | ⟨s, hs, htext⟩
        · obtain rfl := eq_of_placeOf_eq_reference hplace
          exact ⟨[], members, .here _, hvalue ▸ hmem⟩
        · obtain ⟨step, hstep⟩ := exists_holds hmem hs
          have hlt := sizeOf_contents_lt hmem hs
          obtain ⟨path, inner, hat, href⟩ := ih _ (hsize ▸ hlt) htext rfl
          exact ⟨step ++ path, inner, .inside hstep hat, href⟩
      | null | bool | number | string | array => cases htext
  · rintro ⟨path, members, hat, hmem⟩
    exact hat.mem_schemaRefs (mem_schemaRefs_of_mem (by decide) hmem)

/-! ### Printers -/

/-- A printer that writes items and members in order, each member as its key and its value around a
colon. -/
structure Layout (colon : String) (print : Nat → Json → String) : Prop where
  string : ∀ depth text, print depth (string text) = quote text
  array : ∀ depth items, ∃ left separator right : String,
    print depth (array items) =
      left ++ separator.intercalate (items.map (print (depth + 1))) ++ right
  object : ∀ depth members, ∃ left separator right : String,
    print depth (object members) =
      left ++ separator.intercalate
        (members.map fun m => quote m.1 ++ colon ++ print (depth + 1) m.2) ++ right

/-- A reference as it is written. -/
def refText (colon target : String) : String := quote "$ref" ++ colon ++ quote target

/-- Compact text is a layout. -/
lemma layout_compact : Layout ":" fun _ => compact where
  string := fun _ _ => by rw [compact]
  array := by
    intro _ items
    have hitems : ∀ items, compactItems items = items.map compact := by
      intro items
      induction items with
      | nil => rw [compactItems, List.map_nil]
      | cons item items ih => rw [compactItems, ih, List.map_cons]
    exact ⟨_, _, _, by rw [compact, hitems]⟩
  object := by
    intro _ members
    have hmembers : ∀ members,
        compactMembers members = members.map fun m => quote m.1 ++ ":" ++ compact m.2 := by
      intro members
      induction members with
      | nil => rw [compactMembers, List.map_nil]
      | cons member members ih => rw [compactMembers, ih, List.map_cons]
    exact ⟨_, _, _, by rw [compact, hmembers]⟩

/-- Lines between brackets are joined. -/
lemma exists_bracketed (left right : String) (depth : Nat) (lines : List String) :
    ∃ left' separator right' : String,
      bracketed left right depth lines = left' ++ separator.intercalate lines ++ right' := by
  unfold bracketed
  split
  · next hempty =>
    rw [List.isEmpty_iff.mp hempty]
    exact ⟨left, "", right, by rw [String.intercalate_nil, String.append_empty]⟩
  · refine ⟨left ++ newline (depth + 1), "," ++ newline (depth + 1), newline depth ++ right, ?_⟩
    simp only [String.append_assoc]

/-- Indented text is a layout. -/
lemma layout_prettyAt : Layout ": " prettyAt where
  string := fun _ _ => by rw [prettyAt]
  array := by
    intro depth items
    have hitems : ∀ items, prettyItems (depth + 1) items = items.map (prettyAt (depth + 1)) := by
      intro items
      induction items with
      | nil => rw [prettyItems, List.map_nil]
      | cons item items ih => rw [prettyItems, ih, List.map_cons]
    rw [prettyAt, hitems]
    exact exists_bracketed _ _ _ _
  object := by
    intro depth members
    have hmembers : ∀ members, prettyMembers (depth + 1) members =
        members.map fun m => quote m.1 ++ ": " ++ prettyAt (depth + 1) m.2 := by
      intro members
      induction members with
      | nil => rw [prettyMembers, List.map_nil]
      | cons member members ih => rw [prettyMembers, ih, List.map_cons]
    rw [prettyAt, hmembers]
    exact exists_bracketed _ _ _ _

/-- The references of a member stand in its text in order if those of the schemas in it do. -/
lemma Layout.inTurn_memberRefs {colon : String} {print : Nat → Json → String}
    (h : Layout colon print) (key : String) (value : Json) (depth : Nat)
    (hinner : ∀ s ∈ (placeOf none key).contents value, ∀ depth,
      InTurn ((schemaRefs none s).map (refText colon)) (print depth s)) :
    InTurn ((memberRefs none (key, value)).map (refText colon))
      (quote key ++ colon ++ print depth value) := by
  dsimp only [memberRefs]
  cases hplace : placeOf none key with
  | reference =>
    obtain rfl := eq_of_placeOf_eq_reference hplace
    cases value with
    | string target =>
      rw [h.string]
      exact .word _
    | null | bool | number | array | object => exact .nil _
  | schema =>
    rw [hplace] at hinner
    have hvalue := hinner value (List.mem_singleton_self value) depth
    dsimp only [Place.contents]
    rw [List.flatMap_singleton]
    exact hvalue.prepend _
  | schemas =>
    cases value with
    | array items =>
      rw [hplace] at hinner
      obtain ⟨left, separator, right, hprint⟩ := h.array depth items
      have hitems := InTurn.intercalate separator fun s hs => hinner s hs (depth + 1)
      dsimp only [Place.contents]
      rw [hprint, List.map_flatMap]
      exact ((hitems.prepend left).extend right).prepend _
    | null | bool | number | string | object => exact .nil _
  | namedSchemas =>
    cases value with
    | object entries =>
      rw [hplace] at hinner
      obtain ⟨left, separator, right, hprint⟩ := h.object depth entries
      have hentry : ∀ entry ∈ entries, InTurn ((schemaRefs none entry.2).map (refText colon))
          (quote entry.1 ++ colon ++ print (depth + 1) entry.2) := fun entry hmem =>
        (hinner entry.2 (List.mem_map_of_mem hmem) (depth + 1)).prepend (quote entry.1 ++ colon)
      have hentries := InTurn.intercalate separator hentry
      dsimp only [Place.contents]
      rw [hprint, List.flatMap_map, List.map_flatMap]
      exact ((hentries.prepend left).extend right).prepend _
    | null | bool | number | string | array => exact .nil _
  | data => exact .nil _

/-- The references of a schema stand in its text in the order in which they are read. -/
theorem Layout.inTurn_schemaRefs {colon : String} {print : Nat → Json → String}
    (h : Layout colon print) (v : Json) (depth : Nat) :
    InTurn ((schemaRefs none v).map (refText colon)) (print depth v) := by
  induction hsize : sizeOf v using Nat.strongRecOn generalizing v depth with
  | ind size ih =>
    cases v with
    | object members =>
      -- A schema in a member is smaller than the object.
      have hmember : ∀ member ∈ members, InTurn ((memberRefs none member).map (refText colon))
          (quote member.1 ++ colon ++ print (depth + 1) member.2) := by
        rintro ⟨key, value⟩ hmem
        refine h.inTurn_memberRefs key value (depth + 1) fun s hs depth => ?_
        have hlt : sizeOf s < sizeOf (Json.object members) := sizeOf_contents_lt hmem hs
        exact ih _ (hsize ▸ hlt) s depth rfl
      obtain ⟨left, separator, right, hprint⟩ := h.object depth members
      rw [hprint, schemaRefs, schemaRefsOfMembers_eq, List.map_flatMap]
      exact ((InTurn.intercalate separator hmember).prepend left).extend right
    | null | bool | number | string | array => exact .nil _

end Json

/-! ### Nodes -/

namespace Node

open Json (SchemaAt Layout refText)

/-- The references of a node are the `$ref`s in the schema positions of its written form, in the
order of the text and each at its first place only, in both drafts and in both kinds of text. -/
theorem references_follow_text (n : Node) (draft : Draft) :
    n.references.map (·.uri) = ((n.render draft).schemaRefs none).eraseDups ∧
      (∀ text, text ∈ (n.render draft).schemaRefs none ↔
        ∃ path members, SchemaAt none (n.render draft) path (.object members) ∧
          ("$ref", .string text) ∈ members) ∧
      InTurn (((n.render draft).schemaRefs none).map (refText ":")) (n.render draft).compact ∧
      InTurn (((n.render draft).schemaRefs none).map (refText ": ")) (n.render draft).pretty := by
  have htargets : (n.render draft).schemaRefs none = n.targets.map (·.uri) :=
    schemaRefs_members none draft false n
  refine ⟨?_, fun text => Json.mem_schemaRefs_iff, ?_, ?_⟩
  · rw [htargets, references]
    exact map_eraseDups (fun ⟨_⟩ ⟨_⟩ h => congrArg CanonicalId.mk h) n.targets
  · exact Json.layout_compact.inTurn_schemaRefs _ 0
  · exact Json.layout_prettyAt.inTurn_schemaRefs _ 0

end Node

end SchemaCompiler
