import SchemaCompiler.Proofs.FirstMention
import SchemaCompiler.Proofs.TypeGraph.Unwrapping

/-!
# Extracted graphs are explored breadth first

The bounded exploration of a declared root follows the rules that `TypeSource.Explores` gives
without a bound (`explores_extract`), so it ends by itself, also where types refer to each other in
cycles.

The main statement is `TypeSource.extract_explores`.  Besides, it says what the graph of a declared
root is (`TypeGraph.Extracted`): its types stand in the breadth-first order of first mention, every
type that one of them names is among them, and each description is well-formed.  That order is kept
by the rules: what was taken from the queue, each name at its first place, is what the graph
describes (`TypeSource.Queued`).
-/

namespace SchemaCompiler

/-! ### What descriptions guarantee -/

/-- Whether any value is accepted at some place of a type. -/
def ResolvedType.containsAny : ResolvedType → Bool
  | any => true
  | array items _ => items.containsAny
  | map values => values.containsAny
  | nullable inner => inner.containsAny
  | scalar _ | named _ => false

/-- Without null a type accepts any value at the same places. -/
@[simp] lemma ResolvedType.containsAny_nonNull (type : ResolvedType) :
    type.nonNull.containsAny = type.containsAny := by
  induction type <;> simp_all [nonNull, containsAny]

/-- Whether a declared type is an object type. -/
def TypeKind.isObject : TypeKind → Bool
  | object _ _ => true
  | enum _ | union _ _ => false

/-- The properties have distinct names, values and variants are there, and a type accepts any value
only where this is allowed. -/
def TypeKind.WellFormed (allowAny : Bool) : TypeKind → Prop
  | object properties additional =>
    (properties.map (·.name)).Nodup ∧
      ∀ type ∈ properties.map (·.type) ++ additional.toList,
        type.containsAny = true → allowAny = true
  | enum values => values ≠ []
  | union _ variants => variants ≠ []

namespace TypeGraph

/-- The types that the description of a name names, in order. -/
def mentionsOf (graph : TypeGraph) (name : TypeName) : List TypeName :=
  ((graph.get? name).map TypeDescription.mentions).getD []

/-- What the graph of a root is. -/
structure Extracted (graph : TypeGraph) (source : TypeSource) (root : TypeName) : Prop where
  order : BreadthFirst graph.mentionsOf root (graph.types.map (·.name))
  /-- Each description is stored under its own name, and is that of the declared type. -/
  stored : ∀ t ∈ graph.types, graph.get? t.name = some t
  described : ∀ t ∈ graph.types, source.Describes t
  /-- Every named type is in the graph. -/
  closed : ∀ t ∈ graph.types, ∀ name ∈ t.mentions, graph.contains name = true
  wellFormed : ∀ t ∈ graph.types,
    SchemaName.isValid t.schemaName = true ∧ t.kind.WellFormed source.allowAny
  /-- Variants are object types of the graph. -/
  variants : ∀ t ∈ graph.types, ∀ discriminator variants, t.kind = .union discriminator variants →
    ∀ v ∈ variants, ∃ u, graph.get? v.target = some u ∧ u.kind.isObject = true

end TypeGraph

namespace TypeSource

variable {source : TypeSource}

/-- A type accepts any value only where this is allowed. -/
lemma allowAny_of_resolve {owner : TypeName} {path : String} {e : TypeExpr} {type : ResolvedType}
    (h : source.resolve owner path e = .ok type) :
    type.containsAny = true → source.allowAny = true := by
  have hresolves := resolves_of_resolve h
  clear h
  induction hresolves with
  | scalar | named => nofun
  | any hallow | unrestricted _ _ hallow => exact fun _ => hallow
  | list _ ih | set _ ih | map _ _ ih | nullable _ ih => exact ih

/-- A property accepts any value only where this is allowed. -/
lemma allowAny_of_describeProperty {owner : TypeName} {p : PropertyDeclaration}
    {described : PropertyDescription} (h : source.describeProperty owner p = .ok described) :
    described.type.containsAny = true → source.allowAny = true := by
  simp only [describeProperty, bind_eq_ok_iff, pure_eq_ok_iff] at h
  obtain ⟨type, htype, rfl⟩ := h
  dsimp only
  split
  · rw [ResolvedType.containsAny_nonNull]
    exact allowAny_of_resolve htype
  · exact allowAny_of_resolve htype

/-- Adding properties adds none that accept any value where this is not allowed. -/
lemma Flattens.allowAny {unwrapping : List TypeName} {owner : TypeName}
    {properties : List PropertyDeclaration} {collected : List PropertyDescription}
    {result : Except Failure (List PropertyDescription)}
    (h : source.Flattens unwrapping owner properties collected result)
    (hcollected : ∀ p ∈ collected, p.type.containsAny = true → source.allowAny = true) :
    ∀ added, result = .ok added →
      ∀ p ∈ added, p.type.containsAny = true → source.allowAny = true := by
  induction h with
  | done =>
    rintro added ⟨⟩
    exact hcollected
  | refused | stopped | repeated | undescribed => nofun
  | unwrapped _ _ _ _ ihinner ihrest => exact ihrest (ihinner hcollected _ rfl)
  | added _ _ hdescribe _ ih =>
    refine ih fun p hp => ?_
    rcases List.mem_append.mp hp with hp | hp
    · exact hcollected p hp
    · exact List.mem_singleton.mp hp ▸ allowAny_of_describeProperty hdescribe

/-- The additional properties accept any value only where this is allowed. -/
lemma allowAny_of_additionalOf {t : DeclaredType} {additional : Option ResolvedType}
    (h : source.additionalOf t = .ok additional) :
    ∀ type ∈ additional.toList, type.containsAny = true → source.allowAny = true := by
  unfold additionalOf at h
  split at h
  · cases h
    simp
  · obtain ⟨resolved, hresolved, rfl⟩ := map_eq_ok_iff.mp h
    simpa using allowAny_of_resolve hresolved

/-- What is described is well-formed. -/
lemma DescribesKind.wellFormed {t : DeclaredType} {kind : TypeKind}
    (h : source.DescribesKind t kind) : kind.WellFormed source.allowAny := by
  cases h with
  | object hproperties hadditional =>
    refine ⟨nodup_propertiesOf hproperties, fun type htype => ?_⟩
    rcases List.mem_append.mp htype with htype | htype
    · obtain ⟨p, hp, rfl⟩ := List.mem_map.mp htype
      exact (source.flattens_propertiesOf t).allowAny (by simp) _ hproperties p hp
    · exact allowAny_of_additionalOf hadditional type htype
  | enum _ hvalues => exact hvalues
  | union _ hvariants hmapped =>
    rintro rfl
    have hlength := length_of_mapM_eq_ok hmapped
    rw [List.length_nil, eq_comm, List.length_eq_zero_iff] at hlength
    exact hvariants hlength

/-- Declared object types are described as object types. -/
lemma DescribesKind.isObject {t : DeclaredType} {kind : TypeKind}
    (h : source.DescribesKind t kind) (hobject : t.declaration.kind = .object) :
    kind.isObject = true := by
  cases h with
  | object => rfl
  | enum hdeclared | union hdeclared => exact absurd hobject hdeclared

/-- A variant leads to a declared object type. -/
lemma exists_of_describeVariant {owner : TypeName} {v : VariantDeclaration}
    {variant : UnionVariant} (h : source.describeVariant owner v = .ok variant) :
    ∃ target, source.unit.lookup? variant.target.qualified = some target ∧
      target.declaration.kind = .object := by
  obtain ⟨target, htarget, hobject, rfl⟩ := isVariant_of_describeVariant h
  exact ⟨target, CompilationUnit.lookup?_of_resolve? htarget, hobject⟩

/-- A description keeps what its declaration guarantees. -/
lemma Describes.wellFormed {t : TypeDescription} (h : source.Describes t) :
    SchemaName.isValid t.schemaName = true ∧ t.kind.WellFormed source.allowAny := by
  obtain ⟨declared, -, -, hdescribe⟩ := h
  obtain ⟨-, hname, hkind⟩ := describe_eq_ok hdescribe
  refine ⟨?_, (describesKind_of_eq_ok hkind).wellFormed⟩
  unfold describe at hdescribe
  split at hdescribe
  · cases hdescribe
  · next hvalid =>
    rw [hname]
    simpa using hvalid

/-- The variants of a described union are described as object types. -/
lemma Describes.variants {t u : TypeDescription} {discriminator : String}
    {variants : List UnionVariant} (ht : source.Describes t) (hu : source.Describes u)
    (hkind : t.kind = .union discriminator variants) {v : UnionVariant} (hv : v ∈ variants)
    (hname : u.name = v.target) : u.kind.isObject = true := by
  obtain ⟨declared, -, -, hdescribe⟩ := ht
  have hdescribed := describesKind_of_eq_ok (describe_eq_ok hdescribe).2.2
  rw [hkind] at hdescribed
  cases hdescribed with
  | union _ _ hmapped =>
    obtain ⟨w, -, hw⟩ := mem_of_mapM_eq_ok hmapped hv
    obtain ⟨target, hlookup, hobject⟩ := exists_of_describeVariant hw
    obtain ⟨found, hfound, -, hdescribe'⟩ := hu
    rw [hname, hlookup] at hfound
    obtain rfl : target = found := Option.some.inj hfound
    exact (describesKind_of_eq_ok (describe_eq_ok hdescribe').2.2).isObject hobject

/-! ### What the rules lead to -/

variable {graph : TypeGraph} {rest : List TypeName} {root name : TypeName} {t : TypeDescription}

/-- The graph of a declared root is explored by the rules, however types refer to each other. -/
theorem explores_extract (h : source.unit.Declares root) :
    source.Explores [root] {} (source.extract root) :=
  explores_explore (.start h) (by simp)

/-- The description of one declared type names another. -/
def Names (source : TypeSource) (a b : TypeName) : Prop :=
  ∃ t, source.Describes t ∧ t.name = a ∧ b ∈ t.mentions

/-- The state of the queue between two steps: what was put into it is the root and what the
described types name, the graph describes what was taken out, each name where it was taken out
first, and all of this is reached from the root. -/
structure Queued (source : TypeSource) (root : TypeName) (graph : TypeGraph)
    (pending : List TypeName) : Prop where
  taken : ∃ popped, root :: graph.types.flatMap (·.mentions) = popped ++ pending ∧
    popped.eraseDups = graph.types.map (·.name)
  reached : ∀ name ∈ root :: graph.types.flatMap (·.mentions),
    Relation.ReflTransGen source.Names root name

namespace Queued

/-- At first the root is pending. -/
lemma first : source.Queued root {} [root] where
  taken := ⟨[], rfl, List.eraseDups_nil⟩
  reached := by
    intro name hname
    obtain rfl : name = root := by simpa using hname
    exact .refl

/-- Taking out a described name leads to the next state. -/
lemma known (h : source.Queued root graph (name :: rest)) (hknown : graph.contains name = true) :
    source.Queued root graph rest := by
  obtain ⟨popped, hput, hnames⟩ := h.taken
  refine ⟨⟨popped ++ [name], ?_, ?_⟩, h.reached⟩
  · rw [hput, List.append_assoc, List.singleton_append]
  · have hmem : name ∈ popped := by
      rw [TypeGraph.contains_iff, ← hnames] at hknown
      exact List.mem_eraseDups.mp hknown
    rw [eraseDups_concat, if_pos hmem, hnames]

/-- Describing the next name leads to the next state. -/
lemma described (h : source.Queued root graph (t.name :: rest)) (ht : source.Describes t)
    (hnew : graph.contains t.name = false) :
    source.Queued root (graph.add t) (rest ++ t.mentions) := by
  obtain ⟨popped, hput, hnames⟩ := h.taken
  have hputs : root :: (graph.add t).types.flatMap (·.mentions) =
      (root :: graph.types.flatMap (·.mentions)) ++ t.mentions := by
    simp [TypeGraph.add]
  refine ⟨⟨popped ++ [t.name], ?_, ?_⟩, ?_⟩
  · rw [hputs, hput, List.append_assoc, List.append_assoc, List.singleton_append,
      List.cons_append]
  · have hmem : t.name ∉ popped := by
      intro hmem
      have hknown := TypeGraph.contains_iff.mpr (hnames ▸ List.mem_eraseDups.mpr hmem)
      rw [hnew] at hknown
      cases hknown
    rw [eraseDups_concat, if_neg hmem, hnames, TypeGraph.add, List.map_append, List.map_singleton]
  · rw [hputs]
    intro name hname
    rcases List.mem_append.mp hname with hname | hname
    · exact h.reached name hname
    · have hqueued : t.name ∈ root :: graph.types.flatMap (·.mentions) := by
        rw [hput]
        exact List.mem_append_right _ List.mem_cons_self
      exact .tail (h.reached t.name hqueued) ⟨t, ht, rfl, hname⟩

end Queued

/-- An extraction that succeeds empties the queue. -/
theorem queued_extract (hroot : source.unit.Declares root)
    (h : (source.extract root).result = .ok graph) : source.Queued root graph [] :=
  (explores_extract hroot).kept (.start hroot) (fun _ _ _ hknown hqueued => hqueued.known hknown)
    (fun _ _ _ ht hnew hqueued => hqueued.described ht hnew) .first graph h

end TypeSource

/-! ### Extracted graphs -/

namespace TypeGraph

variable {graph : TypeGraph} {source : TypeSource} {root : TypeName}

/-- A graph of descriptions stores each description under its own name. -/
lemma Describes.get?_eq (h : graph.Describes source) {t : TypeDescription} (ht : t ∈ graph.types) :
    graph.get? t.name = some t := by
  obtain ⟨u, hu⟩ := exists_get? (contains_iff.mpr (List.mem_map_of_mem ht))
  obtain ⟨hmem, hname⟩ := mem_of_get? hu
  rw [hu, (h.described u hmem).unique (h.described t ht) hname]

/-- What the description of a name in the graph names. -/
lemma Describes.mentionsOf_eq (h : graph.Describes source) {t : TypeDescription}
    (ht : t ∈ graph.types) : graph.mentionsOf t.name = t.mentions := by
  rw [mentionsOf, h.get?_eq ht, Option.map_some, Option.getD_some]

/-- With the queue empty the types of a closed graph stand in breadth-first order. -/
lemma Closed.breadthFirst (h : graph.Closed source) (hqueued : source.Queued root graph []) :
    BreadthFirst graph.mentionsOf root (graph.types.map (·.name)) := by
  obtain ⟨popped, hput, hnames⟩ := hqueued.taken
  have hmentions : (graph.types.map (·.name)).flatMap graph.mentionsOf =
      graph.types.flatMap (·.mentions) := by
    rw [List.flatMap_map]
    exact List.flatMap_congr fun t ht => h.mentionsOf_eq ht
  refine ⟨?_, ?_⟩
  · rw [hmentions, hput, List.append_nil, hnames]
  · intro name hname
    have hput' : name ∈ root :: graph.types.flatMap (·.mentions) := by
      rw [hput, List.append_nil]
      exact List.mem_eraseDups.mp (hnames ▸ hname)
    have hroot : graph.contains root = true := by
      rw [contains_iff, ← hnames, List.mem_eraseDups, ← List.append_nil popped, ← hput]
      exact List.mem_cons_self
    -- Along a path from the root every type is in the graph, which describes it as declared.
    have hpath : ∀ name, Relation.ReflTransGen source.Names root name →
        graph.contains name = true ∧
          Relation.ReflTransGen (fun a b => b ∈ graph.mentionsOf a) root name := by
      intro name hreached
      induction hreached with
      | refl => exact ⟨hroot, .refl⟩
      | tail _ hnames ih =>
        obtain ⟨hcontains, hreach⟩ := ih
        obtain ⟨t, ht, rfl, hmention⟩ := hnames
        obtain ⟨u, hu⟩ := exists_get? hcontains
        obtain ⟨hmem, hname⟩ := mem_of_get? hu
        obtain rfl := (h.described u hmem).unique ht hname
        exact ⟨h.contains_mention u hmem _ hmention, .tail hreach (h.mentionsOf_eq hmem ▸ hmention)⟩
    exact (hpath name (hqueued.reached name hput')).2

/-- With the queue empty a closed graph is the extracted one. -/
lemma Closed.extracted (h : graph.Closed source) (hqueued : source.Queued root graph []) :
    graph.Extracted source root where
  order := h.breadthFirst hqueued
  stored := fun _ ht => h.get?_eq ht
  described := h.described
  closed := h.contains_mention
  wellFormed := fun t ht => (h.described t ht).wellFormed
  variants := by
    intro t ht discriminator variants hkind v hv
    have hmention : v.target ∈ t.mentions := by
      rw [TypeDescription.mentions, hkind]
      exact List.mem_map_of_mem hv
    obtain ⟨u, hu⟩ := exists_get? (h.contains_mention t ht v.target hmention)
    obtain ⟨hmem, hname⟩ := mem_of_get? hu
    exact ⟨u, hu, (h.described t ht).variants (h.described u hmem) hkind hv hname⟩

end TypeGraph

namespace TypeSource

/-- The graph of a declared root is the extracted one. -/
lemma extracted_of_extract {source : TypeSource} {root : TypeName} {graph : TypeGraph}
    (hroot : source.unit.Declares root) (h : (source.extract root).result = .ok graph) :
    graph.Extracted source root :=
  ((explores_extract hroot).closed (.start hroot) h).extracted (queued_extract hroot h)

/-- The exploration of a declared root ends by itself, whichever way types refer to each other and
are unwrapped.  A graph that it leads to holds the types that the root leads to, in the order in
which they are first mentioned breadth first, and each of their descriptions is well-formed. -/
theorem extract_explores (source : TypeSource) {root : TypeName}
    (hroot : source.unit.Declares root) :
    source.Explores [root] {} (source.extract root) ∧
      (∀ t : DeclaredType, source.Flattens [t.name] t.name (keptProperties t.declaration) []
        (source.propertiesOf t)) ∧
      ∀ graph, (source.extract root).result = .ok graph → graph.Extracted source root := by
  have hexplores := explores_extract hroot
  refine ⟨hexplores, source.flattens_propertiesOf, fun graph hgraph => ?_⟩
  exact extracted_of_extract hroot hgraph

/-- An order of a customer who unwraps an address and lists orders, and the items of the order. -/
def orders : TypeSource where
  allowAny := false
  unit :=
    { types :=
      [ { name := .topLevel "shop" "Order"
          declaration :=
            { name := "Order"
              properties :=
                [ { name := "customer", type := .named "Customer" },
                  { name := "items", type := .list (.nullable (.named "Item")) } ] }
          origin := "" },
        { name := .topLevel "shop" "Address"
          declaration :=
            { name := "Address"
              properties := [{ name := "country", type := .named "Country" }] }
          origin := "" },
        { name := .topLevel "shop" "Country"
          declaration := { name := "Country", kind := .enum, values := ["FR", "JP"] }
          origin := "" },
        { name := .topLevel "shop" "Customer"
          declaration :=
            { name := "Customer"
              properties :=
                [ { name := "address", type := .named "Address", unwrapped := true },
                  { name := "orders", type := .map (.scalar .string) (.named "Order") } ] }
          origin := "" },
        { name := .topLevel "shop" "Item"
          declaration := { name := "Item" }
          origin := "" } ] }

/-- The country comes last, because the unwrapped address names it for the customer. -/
theorem extracted_orders : orders.unit.Declares (.topLevel "shop" "Order") ∧
    ∃ graph, (orders.extract (.topLevel "shop" "Order")).result = .ok graph ∧
      graph.types.map (·.name.simple) = ["Order", "Customer", "Item", "Country"] ∧
      graph.Extracted orders (.topLevel "shop" "Order") := by
  have hroot : orders.unit.Declares (.topLevel "shop" "Order") := ⟨_, rfl, rfl⟩
  exact ⟨hroot, _, rfl, rfl, (extract_explores orders hroot).2.2 _ rfl⟩

end TypeSource

end SchemaCompiler
