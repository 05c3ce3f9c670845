import SchemaCompiler.Proofs.TypeGraph.Exploration
import SchemaCompiler.Proofs.TypeGraph.Flattening

/-!
# Filters that match no property

The filters of a type are applied where the type is described, and again wherever it is unwrapped
inside another type (`TypeSource.Filtered`), but they are checked only where it is described.

An extraction that succeeds finds what the filters of its object types miss, type after type, and
nothing else (`TypeSource.Explores.findings_eq`).  So a filter that is applied and matches no
property is reported exactly if its type is in the graph, and a type that is only unwrapped is not
(`TypeSource.findings_extract`).
-/

namespace SchemaCompiler.TypeSource

variable {source : TypeSource} {graph : TypeGraph} {declared u : DeclaredType}
  {t : TypeDescription} {path : List TypeName} {name : String} {d : Diagnostic}

/-! ### Filters of one type -/

/-- A name to leave out or to keep is the name of no property of the type in JSON. -/
def Unmatched (declaration : TypeDeclaration) (name : String) : Prop :=
  (name ∈ declaration.ignoreProperties ∨
    ∃ included ∈ declaration.includeProperties, name ∈ included) ∧
  name ∉ declaration.properties.map (·.jsonName)

/-- The finding about a filter that matches no property. -/
def unmatchedFilter (t : DeclaredType) (name : String) : Diagnostic :=
  ⟨.unresolvedFilter, t.name.qualified, "property filter '" ++ name ++ "' matches no property"⟩

/-- What is found about the filters of a type are those that match no property. -/
lemma mem_filterFindings :
    d ∈ filterFindings declared ↔
      ∃ name, Unmatched declared.declaration name ∧ d = unmatchedFilter declared name := by
  have hunmatched : ∀ name, Unmatched declared.declaration name ↔
      name ∈ (declared.declaration.ignoreProperties ++
        declared.declaration.includeProperties.getD []).filter
          fun name => !(declared.declaration.properties.map (·.jsonName)).contains name := by
    intro name
    unfold Unmatched
    cases declared.declaration.includeProperties <;> simp [or_and_right]
  simp only [filterFindings, List.mem_map, hunmatched, unmatchedFilter, eq_comm (a := d)]

/-! ### Findings of an extraction -/

/-- What is found where a type is described. -/
def findingsOf (source : TypeSource) (t : TypeDescription) : List Diagnostic :=
  match source.unit.lookup? t.name.qualified with
  | some declared => if declared.declaration.kind = .object then filterFindings declared else []
  | none => []

/-- Describing a type finds what the filters of an object type miss. -/
lemma findings_describeKind {kind : TypeKind}
    (h : (source.describeKind declared).result = .ok kind) :
    (source.describeKind declared).findings =
      if declared.declaration.kind = .object then filterFindings declared else [] := by
  unfold describeKind at h ⊢
  cases hdeclared : declared.declaration.kind with
  | object =>
    simp only [hdeclared] at h ⊢
    cases hproperties : source.propertiesOf declared with
    | error failure =>
      rw [hproperties] at h
      cases h
    | ok properties =>
      cases hadditional : source.additionalOf declared with
      | error failure =>
        rw [hproperties, hadditional] at h
        cases h
      | ok additional => simp [Reported.ofExcept, Reported.report]
  | enum =>
    simp only [hdeclared] at h ⊢
    split <;> rfl
  | union | interface =>
    simp only [hdeclared] at h ⊢
    split
    · rfl
    · cases hvariants : declared.declaration.variants.mapM (source.describeVariant declared.name)
        <;> rfl

/-- A description has the findings of its declared type. -/
lemma findings_describe {findings : List Diagnostic}
    (hlookup : source.unit.lookup? name = some declared)
    (h : source.describe declared = ⟨findings, .ok t⟩) : findings = source.findingsOf t := by
  have hresult : (source.describe declared).result = .ok t := by rw [h]
  obtain ⟨hname, -, hkind⟩ := describe_eq_ok hresult
  have hfindings : findings = (source.describeKind declared).findings := by
    have hfound : findings = (source.describe declared).findings := by rw [h]
    rw [hfound]
    unfold describe at hresult ⊢
    split
    · next hinvalid =>
      rw [if_pos hinvalid] at hresult
      cases hresult
    · rw [Reported.bind_eq, Reported.andThen, hkind]
      exact List.append_nil _
  rw [hfindings, findings_describeKind hkind, findingsOf, hname,
    CompilationUnit.lookup?_qualified hlookup]

/-- An exploration that succeeds finds what is found where the added types are described. -/
theorem Explores.findings_eq {pending : List TypeName} {outcome : Reported TypeGraph}
    (h : source.Explores pending graph outcome) :
    ∀ final, outcome.result = .ok final →
      ∃ added, final.types = graph.types ++ added ∧
        outcome.findings = added.flatMap source.findingsOf := by
  induction h with
  | done =>
    rintro final ⟨⟩
    exact ⟨[], (List.append_nil _).symm, rfl⟩
  | known _ _ ih => exact ih
  | undeclared | refused => nofun
  | @described graph _ _ _ findings t _ _ hlookup hdescribe _ ih =>
    intro final hfinal
    obtain ⟨added, htypes, hfindings⟩ := ih final hfinal
    refine ⟨t :: added, ?_, ?_⟩
    · rw [htypes, TypeGraph.add, List.append_assoc, List.singleton_append]
    · rw [List.flatMap_cons, hfindings, findings_describe hlookup hdescribe]

/-! ### Filters that are applied -/

/-- The types whose filters are applied where the types of a graph are described, among the types
that are unwrapped around them: the object types of the graph, and what is unwrapped inside them. -/
inductive Filtered (source : TypeSource) (graph : TypeGraph) : List TypeName → DeclaredType → Prop
  /-- An object type of the graph is described under its filters. -/
  | described {t : TypeDescription} {declared : DeclaredType} (ht : t ∈ graph.types)
      (hlookup : source.unit.lookup? t.name.qualified = some declared)
      (hobject : declared.declaration.kind = .object) :
      Filtered source graph [declared.name] declared
  /-- The filters of an unwrapped type are applied inside the other type. -/
  | unwrapped {path inside : List TypeName} {outer inner : DeclaredType}
      (houter : Filtered source graph path outer)
      (hnests : source.Nests (inside, inner) (path, outer)) : Filtered source graph inside inner

/-- A type whose filters are applied is an object type that is found under its own name. -/
lemma Filtered.lookup?_eq (h : source.Filtered graph path u) :
    source.unit.lookup? u.name.qualified = some u ∧ u.declaration.kind = .object := by
  cases h with
  | described _ hlookup hobject => exact ⟨CompilationUnit.lookup?_qualified hlookup, hobject⟩
  | unwrapped _ hnests =>
    obtain ⟨_, -, -, ⟨_, -, hresolve, hobject⟩, -⟩ := hnests
    exact ⟨CompilationUnit.lookup?_of_resolve? hresolve, hobject⟩

/-- What is found where the types of a graph are described are the unmatched filters of its object
types. -/
lemma mem_flatMap_findingsOf (h : ∀ t ∈ graph.types, source.Describes t) :
    d ∈ graph.types.flatMap source.findingsOf ↔
      ∃ u name, graph.contains u.name = true ∧ source.Filtered graph [u.name] u ∧
        Unmatched u.declaration name ∧ d = unmatchedFilter u name := by
  rw [List.mem_flatMap]
  constructor
  · rintro ⟨t, ht, hd⟩
    obtain ⟨declared, hlookup, hname, -⟩ := h t ht
    have hobject : declared.declaration.kind = .object ∧ d ∈ filterFindings declared := by
      rw [findingsOf, hlookup] at hd
      dsimp only at hd
      split at hd
      · next hobject => exact ⟨hobject, hd⟩
      · cases hd
    obtain ⟨name, hunmatched, rfl⟩ := mem_filterFindings.mp hobject.2
    have hcontains : graph.contains declared.name = true :=
      TypeGraph.contains_iff.mpr (hname ▸ List.mem_map_of_mem ht)
    exact ⟨declared, name, hcontains, .described ht hlookup hobject.1, hunmatched, rfl⟩
  · rintro ⟨u, name, hcontains, hfiltered, hunmatched, rfl⟩
    obtain ⟨hlookup, hobject⟩ := hfiltered.lookup?_eq
    obtain ⟨t, ht, hname⟩ := List.mem_map.mp (TypeGraph.contains_iff.mp hcontains)
    refine ⟨t, ht, ?_⟩
    rw [findingsOf, hname, hlookup]
    dsimp only
    rw [if_pos hobject]
    exact mem_filterFindings.mpr ⟨name, hunmatched, rfl⟩

/-- An extraction that succeeds finds what the filters of the described object types miss, type
after type, and nothing else.  Of the filters that are applied, one that matches no property is
reported exactly if its type is in the graph, so it is not if the type is only unwrapped. -/
theorem findings_extract (source : TypeSource) {root : TypeName}
    (hroot : source.unit.Declares root) {graph : TypeGraph}
    (hgraph : (source.extract root).result = .ok graph) :
    (source.extract root).findings = graph.types.flatMap source.findingsOf ∧
    (∀ path u, source.Filtered graph path u → ∀ name, Unmatched u.declaration name →
      (unmatchedFilter u name ∈ (source.extract root).findings ↔
        graph.contains u.name = true)) ∧
    ∀ d ∈ (source.extract root).findings, ∃ u name, graph.contains u.name = true ∧
      source.Filtered graph [u.name] u ∧ Unmatched u.declaration name ∧
      d = unmatchedFilter u name := by
  have hdescribed := (extracted_of_extract hroot hgraph).described
  have hfindings : (source.extract root).findings = graph.types.flatMap source.findingsOf := by
    obtain ⟨added, htypes, hfindings⟩ := (explores_extract hroot).findings_eq graph hgraph
    rwa [htypes, List.nil_append]
  refine ⟨hfindings, fun path u hfiltered name hunmatched => ?_, fun d hd => ?_⟩
  · obtain ⟨hlookup, hobject⟩ := hfiltered.lookup?_eq
    rw [hfindings, mem_flatMap_findingsOf hdescribed]
    constructor
    · rintro ⟨other, name', hcontains, hother, -, hsame⟩
      -- A finding names the type, and the name finds one type only.
      have hqualified : u.name.qualified = other.name.qualified :=
        congrArg Diagnostic.location hsame
      obtain ⟨hlookup', -⟩ := hother.lookup?_eq
      rw [← hqualified, hlookup] at hlookup'
      rwa [Option.some.inj hlookup']
    · intro hcontains
      obtain ⟨t, ht, hname⟩ := List.mem_map.mp (TypeGraph.contains_iff.mp hcontains)
      exact ⟨u, name, hcontains, .described ht (hname ▸ hlookup) hobject, hunmatched, rfl⟩
  · rw [hfindings, mem_flatMap_findingsOf hdescribed] at hd
    exact hd

/-- A letter unwraps its sender. -/
def letter : DeclaredType where
  name := .topLevel "post" "Letter"
  declaration :=
    { name := "Letter"
      properties := [{ name := "sender", type := .named "Sender", unwrapped := true }] }
  origin := ""

/-- A sender leaves out a street that it does not have. -/
def sender : DeclaredType where
  name := .topLevel "post" "Sender"
  declaration :=
    { name := "Sender"
      properties := [{ name := "from", type := .scalar .string }]
      ignoreProperties := ["street"] }
  origin := ""

/-- Letters and their senders. -/
def letters : TypeSource where
  allowAny := false
  unit := { types := [letter, sender] }

/-- The filter of the sender is applied inside the letter, and it is not reported. -/
theorem findings_letters : letters.unit.Declares letter.name ∧
    ∃ graph, (letters.extract letter.name).result = .ok graph ∧
      letters.Filtered graph [letter.name, sender.name] sender ∧
      Unmatched sender.declaration "street" ∧
      unmatchedFilter sender "street" ∉ (letters.extract letter.name).findings := by
  have hroot : letters.unit.Declares letter.name := ⟨_, rfl, rfl⟩
  obtain ⟨graph, hgraph, htypes⟩ : ∃ graph, (letters.extract letter.name).result = .ok graph ∧
      graph.types.map (·.name) = [letter.name] := ⟨_, rfl, rfl⟩
  obtain ⟨t, ht, hname⟩ := List.mem_map.mp (htypes ▸ List.mem_singleton_self letter.name)
  have hletter : letters.Filtered graph [letter.name] letter :=
    .described ht (hname ▸ rfl) rfl
  have hsender : letters.Filtered graph [letter.name, sender.name] sender :=
    .unwrapped hletter ⟨_, List.mem_cons_self, rfl, ⟨"Sender", rfl, rfl, rfl⟩, by decide, rfl⟩
  have hunmatched : Unmatched sender.declaration "street" := by
    exact ⟨Or.inl (by decide), by decide⟩
  refine ⟨hroot, graph, hgraph, hsender, hunmatched, fun hmem => ?_⟩
  have hcontains := ((letters.findings_extract hroot hgraph).2.1 _ _ hsender _ hunmatched).mp hmem
  rw [TypeGraph.contains_iff, htypes] at hcontains
  exact absurd hcontains (by decide)

end SchemaCompiler.TypeSource
