import SchemaCompiler.Proofs.Outcome
import SchemaCompiler.TypeGraph.Extraction

/-!
# Extracted graphs are closed

`TypeSource.Describes` says that a description is the one of the type declared under its name.  The
main statement is `TypeGraph.Closed.of_extract`: an extracted graph holds descriptions of declared
types only, each once, and every type that one of them names is described in it too.  The
descriptions depend on the declarations alone, so two graphs of one unit agree wherever they meet.

`TypeSource.Explores` says in rules how an exploration goes on from pending names, one name after
another and without a bound on the number of steps.  The exploration itself is bounded by the number
of declared types, and it follows these rules (`explores_explore`): the names in a graph are
pairwise distinct names of declared types, so the bound is never reached.  What every step keeps
therefore holds where an exploration ends (`Explores.kept`).
-/

namespace SchemaCompiler

/-! ### Declared names -/

namespace CompilationUnit

/-- A name is declared if its full name finds a type of this very name. -/
def Declares (unit : CompilationUnit) (name : TypeName) : Prop :=
  ∃ t, unit.lookup? name.qualified = some t ∧ t.name = name

variable {unit : CompilationUnit}

/-- A type that is found is found under its own full name. -/
lemma lookup?_qualified {q : String} {t : DeclaredType} (h : unit.lookup? q = some t) :
    unit.lookup? t.name.qualified = some t := by
  have hq : t.name.qualified = q := by simpa [lookup?] using List.find?_some h
  rw [hq, h]

/-- A name that stands for a type finds it in some scope. -/
lemma lookup?_of_resolve? {inside : TypeName} {written : String} {t : DeclaredType}
    (h : unit.resolve? inside written = some t) : unit.lookup? t.name.qualified = some t := by
  unfold resolve? at h
  split at h
  · next found hfound =>
    obtain ⟨scope, -, hscope⟩ := List.exists_of_findSome?_eq_some hfound
    exact Option.some.inj h ▸ lookup?_qualified hscope
  · exact lookup?_qualified h

/-- A name that stands for a type is resolved to a declared name. -/
lemma declares_of_resolve? {inside : TypeName} {written : String} {t : DeclaredType}
    (h : unit.resolve? inside written = some t) : unit.Declares t.name :=
  ⟨t, lookup?_of_resolve? h, rfl⟩

/-- Pairwise distinct declared names are no more than the declared types. -/
lemma length_le_of_declares {names : List TypeName} (hnodup : names.Nodup)
    (h : ∀ name ∈ names, unit.Declares name) : names.length ≤ unit.types.length := by
  have hsub : names ⊆ unit.types.map (·.name) := by
    intro name hname
    obtain ⟨t, ht, rfl⟩ := h name hname
    exact List.mem_map_of_mem (List.mem_of_find?_eq_some ht)
  simpa using hnodup.length_le_of_subset hsub

end CompilationUnit

namespace TypeSource

variable {source : TypeSource}

/-! ### Resolved types -/

/-- The rules by which a type is resolved inside another type. -/
inductive Resolves (source : TypeSource) (owner : TypeName) : TypeExpr → ResolvedType → Prop
  /-- A scalar needs no declaration. -/
  | scalar (kind : Scalar) : Resolves source owner (.scalar kind) (.scalar kind)
  /-- Any value is accepted where this is allowed. -/
  | any (hallow : source.allowAny = true) : Resolves source owner .any .any
  /-- A name stands for a declared type. -/
  | named {written : String} {t : DeclaredType}
      (ht : source.unit.resolve? owner written = some t) (hclosed : isOpen t = false) :
      Resolves source owner (.named written) (.named t.name)
  /-- A type that is open accepts any value where this is allowed. -/
  | unrestricted {written : String} {t : DeclaredType}
      (ht : source.unit.resolve? owner written = some t) (hopen : isOpen t = true)
      (hallow : source.allowAny = true) : Resolves source owner (.named written) .any
  | list {items : TypeExpr} {item : ResolvedType} (hitem : Resolves source owner items item) :
      Resolves source owner (.list items) (.array item false)
  | set {items : TypeExpr} {item : ResolvedType} (hitem : Resolves source owner items item) :
      Resolves source owner (.set items) (.array item true)
  /-- The keys of a map are texts. -/
  | map {key values : TypeExpr} {value : ResolvedType} (hkey : isKey key = true)
      (hvalue : Resolves source owner values value) :
      Resolves source owner (.map key values) (.map value)
  | nullable {e : TypeExpr} {type : ResolvedType} (htype : Resolves source owner e type) :
      Resolves source owner (.nullable e) (.nullable type)

/-- A type is resolved by the rules. -/
theorem resolves_of_resolve {owner : TypeName} {path : String} {e : TypeExpr}
    {type : ResolvedType} (h : source.resolve owner path e = .ok type) :
    source.Resolves owner e type := by
  induction e generalizing path type with
  | scalar kind =>
    cases h
    exact .scalar kind
  | any =>
    unfold resolve at h
    split at h
    · next hallow =>
      cases h
      exact .any hallow
    · cases h
  | named written =>
    unfold resolve at h
    split at h
    · cases h
    · next t ht =>
      split at h
      · next hclosed =>
        cases h
        exact .named ht (by simpa using hclosed)
      · next hopen =>
        split at h
        · next hallow =>
          cases h
          exact .unrestricted ht (by simpa using hopen) hallow
        · cases h
  | list items ih =>
    simp only [resolve, bind_eq_ok_iff, pure_eq_ok_iff] at h
    obtain ⟨item, hitem, rfl⟩ := h
    exact .list (ih hitem)
  | set items ih =>
    simp only [resolve, bind_eq_ok_iff, pure_eq_ok_iff] at h
    obtain ⟨item, hitem, rfl⟩ := h
    exact .set (ih hitem)
  | map key values _ ih =>
    unfold resolve at h
    split at h
    · next hkey =>
      simp only [bind_eq_ok_iff, pure_eq_ok_iff] at h
      obtain ⟨value, hvalue, rfl⟩ := h
      exact .map hkey (ih hvalue)
    · cases h
  | nullable inner ih =>
    simp only [resolve, bind_eq_ok_iff, pure_eq_ok_iff] at h
    obtain ⟨type', htype', rfl⟩ := h
    exact .nullable (ih htype')

/-! ### Names in descriptions -/

/-- A resolved type names declared types only. -/
lemma declares_of_resolve {owner : TypeName} {path : String} {e : TypeExpr} {type : ResolvedType}
    (h : source.resolve owner path e = .ok type) :
    ∀ name ∈ type.mentions, source.unit.Declares name := by
  have hresolves := resolves_of_resolve h
  clear h
  induction hresolves with
  | scalar | any | unrestricted => exact List.forall_mem_nil _
  | named ht =>
    rw [ResolvedType.mentions, List.forall_mem_singleton]
    exact CompilationUnit.declares_of_resolve? ht
  | list _ ih | set _ ih | map _ _ ih | nullable _ ih => exact ih

/-- A described property names declared types only. -/
lemma declares_of_describeProperty {owner : TypeName} {p : PropertyDeclaration}
    {described : PropertyDescription} (h : source.describeProperty owner p = .ok described) :
    ∀ name ∈ described.type.mentions, source.unit.Declares name := by
  simp only [describeProperty, bind_eq_ok_iff, pure_eq_ok_iff] at h
  obtain ⟨type, htype, rfl⟩ := h
  dsimp only
  split
  · rw [ResolvedType.mentions_nonNull]
    exact declares_of_resolve htype
  · exact declares_of_resolve htype

/-- Properties that name declared types only. -/
def NamesDeclared (source : TypeSource) (properties : List PropertyDescription) : Prop :=
  ∀ p ∈ properties, ∀ name ∈ p.type.mentions, source.unit.Declares name

/-- Collecting the properties of a type keeps to declared names. -/
lemma namesDeclared_addProperties {depth : Nat} {unwrapping : List TypeName} {t : DeclaredType}
    {collected properties : List PropertyDescription} (hc : source.NamesDeclared collected)
    (h : source.addProperties depth unwrapping t collected = .ok properties) :
    source.NamesDeclared properties := by
  induction depth generalizing unwrapping t collected properties with
  | zero => exact Except.ok.inj h ▸ hc
  | succ depth ih =>
    refine foldlM_preserves (P := source.NamesDeclared) ?_ hc h
    intro before p _ after hbefore hp
    unfold addProperty at hp
    split at hp
    · obtain ⟨target, -, htarget⟩ := bind_eq_ok_iff.mp hp
      exact ih hbefore htarget
    · split at hp
      · cases hp
      · simp only [bind_eq_ok_iff, pure_eq_ok_iff] at hp
        obtain ⟨described, hdescribed, rfl⟩ := hp
        intro q hq
        rcases List.mem_append.mp hq with hq | hq
        · exact hbefore q hq
        · exact List.mem_singleton.mp hq ▸ declares_of_describeProperty hdescribed

/-- The additional properties of a type name declared types only. -/
lemma declares_of_additionalOf {t : DeclaredType} {additional : Option ResolvedType}
    (h : source.additionalOf t = .ok additional) :
    ∀ name ∈ additional.toList.flatMap ResolvedType.mentions, source.unit.Declares name := by
  unfold additionalOf at h
  split at h
  · cases h
    simp
  · obtain ⟨type, htype, rfl⟩ := map_eq_ok_iff.mp h
    simpa using declares_of_resolve htype

/-- A variant leads to an object type, and its tag is the declared one or else the simple name of
the type. -/
def IsVariant (source : TypeSource) (owner : TypeName) (declared : VariantDeclaration)
    (w : UnionVariant) : Prop :=
  ∃ target, source.unit.resolve? owner declared.target = some target ∧
    target.declaration.kind = .object ∧
    w = ⟨declared.tag.getD target.name.simple, target.name⟩

/-- A described variant is that of its declaration. -/
lemma isVariant_of_describeVariant {owner : TypeName} {declared : VariantDeclaration}
    {w : UnionVariant} (h : source.describeVariant owner declared = .ok w) :
    source.IsVariant owner declared w := by
  unfold describeVariant at h
  dsimp only at h
  split at h
  · cases h
  · next target htarget =>
    split at h
    · cases h
    · next hkind => exact ⟨target, htarget, Decidable.not_not.mp hkind, (Except.ok.inj h).symm⟩

/-- A variant leads to a declared type. -/
lemma declares_of_describeVariant {owner : TypeName} {v : VariantDeclaration}
    {variant : UnionVariant} (h : source.describeVariant owner v = .ok variant) :
    source.unit.Declares variant.target := by
  obtain ⟨target, htarget, -, rfl⟩ := isVariant_of_describeVariant h
  exact CompilationUnit.declares_of_resolve? htarget

/-- How a declared type is described as a kind of type. -/
inductive DescribesKind (source : TypeSource) (t : DeclaredType) : TypeKind → Prop
  /-- An object type has its properties. -/
  | object {properties : List PropertyDescription} {additional : Option ResolvedType}
      (hproperties : source.propertiesOf t = .ok properties)
      (hadditional : source.additionalOf t = .ok additional) :
      DescribesKind source t (.object properties additional)
  /-- An enumeration has its values. -/
  | enum (hdeclared : t.declaration.kind ≠ .object) (hvalues : t.declaration.values ≠ []) :
      DescribesKind source t (.enum t.declaration.values)
  /-- Unions and interfaces have their variants. -/
  | union {variants : List UnionVariant} (hdeclared : t.declaration.kind ≠ .object)
      (hvariants : t.declaration.variants ≠ [])
      (hmapped : t.declaration.variants.mapM (source.describeVariant t.name) = .ok variants) :
      DescribesKind source t
        (.union (t.declaration.discriminator.getD defaultDiscriminator) variants)

/-- What a declared type is described as. -/
lemma describesKind_of_eq_ok {t : DeclaredType} {kind : TypeKind}
    (h : (source.describeKind t).result = .ok kind) : source.DescribesKind t kind := by
  unfold describeKind at h
  split at h
  · simp only [Reported.bind_eq, Reported.result_andThen_eq_ok_iff, Reported.result_ofExcept] at h
    obtain ⟨properties, hproperties, -, -, additional, hadditional, hkind⟩ := h
    cases hkind
    exact .object hproperties hadditional
  · next hdeclared =>
    split at h
    · cases h
    · next hvalues =>
      cases h
      exact .enum (by simp [hdeclared]) (by simpa using hvalues)
  all_goals
    next hdeclared =>
    split at h
    · cases h
    · next hvariants =>
      simp only [Reported.bind_eq, Reported.result_andThen_eq_ok_iff,
        Reported.result_ofExcept] at h
      obtain ⟨variants, hmapped, hkind⟩ := h
      cases hkind
      exact .union (by simp [hdeclared]) (by simpa using hvariants) hmapped

/-- What a declared type is described as names declared types only. -/
lemma declares_of_describeKind {t : DeclaredType} {kind : TypeKind}
    (h : (source.describeKind t).result = .ok kind) :
    ∀ name ∈ kind.mentions, source.unit.Declares name := by
  cases describesKind_of_eq_ok h with
  | object hproperties hadditional =>
    have hp : source.NamesDeclared _ :=
      namesDeclared_addProperties (fun _ hq => absurd hq List.not_mem_nil) hproperties
    intro name hname
    simp only [TypeKind.mentions, List.mem_append] at hname
    rcases hname with hname | hname
    · obtain ⟨p, hmem, hname⟩ := List.mem_flatMap.mp hname
      exact hp p hmem name hname
    · exact declares_of_additionalOf hadditional name hname
  | enum => simp [TypeKind.mentions]
  | union _ _ hmapped =>
    intro name hname
    obtain ⟨variant, hvariant, rfl⟩ := List.mem_map.mp hname
    obtain ⟨v, -, hv⟩ := mem_of_mapM_eq_ok hmapped hvariant
    exact declares_of_describeVariant hv

/-! ### Descriptions -/

/-- A description is the one of the type declared under its name. -/
def Describes (source : TypeSource) (t : TypeDescription) : Prop :=
  ∃ declared, source.unit.lookup? t.name.qualified = some declared ∧ declared.name = t.name ∧
    (source.describe declared).result = .ok t

/-- What is described keeps its name, and its schema is named by its declaration. -/
lemma describe_eq_ok {declared : DeclaredType} {t : TypeDescription}
    (h : (source.describe declared).result = .ok t) :
    t.name = declared.name ∧ t.schemaName = schemaNameOf declared ∧
      (source.describeKind declared).result = .ok t.kind := by
  unfold describe at h
  split at h
  · cases h
  · rw [Reported.bind_eq, Reported.result_andThen_eq_ok_iff] at h
    obtain ⟨kind, hkind, ht⟩ := h
    cases ht
    exact ⟨rfl, rfl, hkind⟩

namespace Describes

variable {t u : TypeDescription}

/-- A description found for a declared type describes it. -/
lemma of_lookup? {q : String} {declared : DeclaredType}
    (hlookup : source.unit.lookup? q = some declared)
    (h : (source.describe declared).result = .ok t) : source.Describes t := by
  have hname : t.name = declared.name := (describe_eq_ok h).1
  exact ⟨declared, hname ▸ CompilationUnit.lookup?_qualified hlookup, hname.symm, h⟩

/-- Two descriptions under one name are the same. -/
lemma unique (ht : source.Describes t) (hu : source.Describes u) (h : t.name = u.name) :
    t = u := by
  obtain ⟨declared, hlookup, -, hdescribe⟩ := ht
  obtain ⟨declared', hlookup', -, hdescribe'⟩ := hu
  rw [h, hlookup'] at hlookup
  cases hlookup
  rw [hdescribe] at hdescribe'
  exact Except.ok.inj hdescribe'

/-- The name of a description is declared. -/
lemma declares (h : source.Describes t) : source.unit.Declares t.name := by
  obtain ⟨declared, hlookup, hname, -⟩ := h
  exact ⟨declared, hlookup, hname⟩

/-- The names in a description are declared. -/
lemma declares_mentions (h : source.Describes t) :
    ∀ name ∈ t.mentions, source.unit.Declares name := by
  obtain ⟨declared, -, -, hdescribe⟩ := h
  exact declares_of_describeKind (describe_eq_ok hdescribe).2.2

end Describes

end TypeSource

/-! ### Graphs -/

namespace TypeGraph

variable {graph : TypeGraph} {source : TypeSource}

/-- A type is described exactly if its name is among those of the graph. -/
lemma contains_iff {name : TypeName} :
    graph.contains name = true ↔ name ∈ graph.types.map (·.name) := by
  simp [contains]

/-- What is found under a name is in the graph and has that name. -/
lemma mem_of_get? {name : TypeName} {t : TypeDescription} (h : graph.get? name = some t) :
    t ∈ graph.types ∧ t.name = name :=
  ⟨List.mem_of_find?_eq_some h, by simpa [get?] using List.find?_some h⟩

/-- A described name finds its description. -/
lemma exists_get? {name : TypeName} (h : graph.contains name = true) :
    ∃ t, graph.get? name = some t := by
  obtain ⟨t, ht, hname⟩ := List.any_eq_true.mp h
  exact Option.isSome_iff_exists.mp (List.find?_isSome.mpr ⟨t, ht, hname⟩)

/-- A graph of descriptions of declared types, each of them once. -/
structure Describes (graph : TypeGraph) (source : TypeSource) : Prop where
  described : ∀ t ∈ graph.types, source.Describes t
  nodup : (graph.types.map (·.name)).Nodup

/-- A graph of descriptions in which every named type is described. -/
structure Closed (graph : TypeGraph) (source : TypeSource) : Prop
    extends graph.Describes source where
  contains_mention : ∀ t ∈ graph.types, ∀ name ∈ t.mentions, graph.contains name = true

/-- A graph of descriptions has no more types than are declared. -/
lemma Describes.length_le (h : graph.Describes source) :
    graph.types.length ≤ source.unit.types.length := by
  have hdeclared : ∀ name ∈ graph.types.map (·.name), source.unit.Declares name := by
    intro name hname
    obtain ⟨t, ht, rfl⟩ := List.mem_map.mp hname
    exact (h.described t ht).declares
  simpa using CompilationUnit.length_le_of_declares h.nodup hdeclared

/-- A new description can be added. -/
lemma Describes.add {t : TypeDescription} (h : graph.Describes source)
    (ht : source.Describes t) (hnew : graph.contains t.name ≠ true) :
    (graph.add t).Describes source where
  described := by
    intro u hu
    rcases List.mem_append.mp hu with hu | hu
    · exact h.described u hu
    · exact List.mem_singleton.mp hu ▸ ht
  nodup := by
    have hmap : (graph.add t).types.map (·.name) = graph.types.map (·.name) ++ [t.name] := by
      simp [TypeGraph.add]
    rw [hmap, List.nodup_append]
    refine ⟨h.nodup, List.pairwise_singleton _ _, ?_⟩
    rintro name hname other hother rfl
    rw [List.mem_singleton] at hother
    exact hnew (contains_iff.mpr (hother ▸ hname))

/-- What is in a graph stays in it when a type is added. -/
lemma contains_add {name : TypeName} {t : TypeDescription} (h : graph.contains name = true) :
    (graph.add t).contains name = true := by
  simp only [contains, add, List.any_append, Bool.or_eq_true]
  exact Or.inl h

/-- An added type is in the graph. -/
lemma contains_add_self {t : TypeDescription} : (graph.add t).contains t.name = true := by
  simp [contains, add]

end TypeGraph

/-! ### Rules of exploration -/

namespace TypeSource

/-- The rules by which an exploration goes on from pending names and a graph. -/
inductive Explores (source : TypeSource) :
    List TypeName → TypeGraph → Reported TypeGraph → Prop
  /-- No name is pending. -/
  | done {graph : TypeGraph} : Explores source [] graph ⟨[], .ok graph⟩
  /-- The next name is described already. -/
  | known {graph : TypeGraph} {name : TypeName} {rest : List TypeName}
      {outcome : Reported TypeGraph} (hknown : graph.contains name = true)
      (hrest : Explores source rest graph outcome) : Explores source (name :: rest) graph outcome
  /-- The next name is not declared. -/
  | undeclared {graph : TypeGraph} {name : TypeName} {rest : List TypeName}
      (hnew : graph.contains name = false) (hlookup : source.unit.lookup? name.qualified = none) :
      Explores source (name :: rest) graph
        ⟨[], .error (.unsupported name.qualified "" .notDeclared)⟩
  /-- The next type has no description. -/
  | refused {graph : TypeGraph} {name : TypeName} {rest : List TypeName}
      {declared : DeclaredType} {findings : List Diagnostic} {failure : Failure}
      (hnew : graph.contains name = false)
      (hlookup : source.unit.lookup? name.qualified = some declared)
      (hdescribe : source.describe declared = ⟨findings, .error failure⟩) :
      Explores source (name :: rest) graph ⟨findings, .error failure⟩
  /-- The next type is described, and what it names is pending after the other names. -/
  | described {graph : TypeGraph} {name : TypeName} {rest : List TypeName}
      {declared : DeclaredType} {findings : List Diagnostic} {t : TypeDescription}
      {outcome : Reported TypeGraph} (hnew : graph.contains name = false)
      (hlookup : source.unit.lookup? name.qualified = some declared)
      (hdescribe : source.describe declared = ⟨findings, .ok t⟩)
      (hrest : Explores source (rest ++ t.mentions) (graph.add t) outcome) :
      Explores source (name :: rest) graph ⟨findings ++ outcome.findings, outcome.result⟩

variable {source : TypeSource} {graph final : TypeGraph} {pending rest : List TypeName}
  {root name : TypeName} {declared : DeclaredType} {t : TypeDescription}

/-- Names that are described already can be skipped. -/
lemma Explores.of_dropWhile {outcome : Reported TypeGraph}
    (h : source.Explores (pending.dropWhile graph.contains) graph outcome) :
    source.Explores pending graph outcome := by
  induction pending with
  | nil => exact h
  | cons name rest ih =>
    rw [List.dropWhile_cons] at h
    split at h
    · next hknown => exact .known hknown (ih h)
    · exact h

/-- The next name after the skipped ones is new. -/
lemma contains_eq_false_of_dropWhile (h : pending.dropWhile graph.contains = name :: rest) :
    graph.contains name = false := by
  have hhead := List.head_dropWhile_not graph.contains (l := pending) (by simp [h])
  simpa [h] using hhead

/-! ### States of an exploration -/

/-- What is described or pending is so after a described name is taken out. -/
lemma contains_or_mem_of_known (hknown : graph.contains name = true) {other : TypeName}
    (h : graph.contains other = true ∨ other ∈ name :: rest) :
    graph.contains other = true ∨ other ∈ rest := by
  rcases h with h | h
  · exact Or.inl h
  · rcases List.mem_cons.mp h with rfl | h
    · exact Or.inl hknown
    · exact Or.inr h

/-- What is described or pending is so after the next name is described. -/
lemma contains_or_mem_of_described (t : TypeDescription) {other : TypeName}
    (h : graph.contains other = true ∨ other ∈ t.name :: rest) :
    (graph.add t).contains other = true ∨ other ∈ rest ++ t.mentions := by
  rcases h with h | h
  · exact Or.inl (TypeGraph.contains_add h)
  · rcases List.mem_cons.mp h with rfl | h
    · exact Or.inl TypeGraph.contains_add_self
    · exact Or.inr (List.mem_append_left _ h)

/-- The state between two steps of an exploration: every name in the graph is described or pending,
and what is pending is declared. -/
structure Frontier (source : TypeSource) (graph : TypeGraph) (pending : List TypeName) : Prop
    extends graph.Describes source where
  covered : ∀ t ∈ graph.types, ∀ name ∈ t.mentions, graph.contains name = true ∨ name ∈ pending
  declared : ∀ name ∈ pending, source.unit.Declares name

namespace Frontier

/-- The pending root is a state of an exploration if it is declared. -/
lemma start (h : source.unit.Declares root) : source.Frontier {} [root] where
  described := by simp
  nodup := by simp
  covered := by simp
  declared := by simpa using h

/-- The first description is a state of an exploration. -/
lemma first (ht : source.Describes t) : source.Frontier (TypeGraph.add {} t) t.mentions where
  described := by simpa [TypeGraph.add] using ht
  nodup := by simp [TypeGraph.add]
  covered := by
    intro u hu name hname
    rw [TypeGraph.add, List.nil_append, List.mem_singleton] at hu
    exact Or.inr (hu ▸ hname)
  declared := ht.declares_mentions

/-- With nothing left to describe the graph is closed. -/
lemma closed (h : source.Frontier graph []) : graph.Closed source :=
  { h.toDescribes with
    contains_mention := fun t ht name hname =>
      (h.covered t ht name hname).resolve_right List.not_mem_nil }

/-- Taking out a described name leads to the next state. -/
lemma known (h : source.Frontier graph (name :: rest)) (hknown : graph.contains name = true) :
    source.Frontier graph rest :=
  { h.toDescribes with
    covered := fun u hu other hother =>
      contains_or_mem_of_known hknown (h.covered u hu other hother)
    declared := fun other hother => h.declared other (List.mem_cons_of_mem _ hother) }

/-- Skipping described names leads to a later state. -/
lemma dropWhile (h : source.Frontier graph pending) :
    source.Frontier graph (pending.dropWhile graph.contains) := by
  induction pending with
  | nil => exact h
  | cons name rest ih =>
    rw [List.dropWhile_cons]
    split
    · next hknown => exact ih (h.known hknown)
    · exact h

/-- The next pending name is the name of its description. -/
lemma name_eq (h : source.Frontier graph (name :: rest))
    (hlookup : source.unit.lookup? name.qualified = some declared)
    (hdescribe : (source.describe declared).result = .ok t) : t.name = name := by
  obtain ⟨found, hfound, hname⟩ := h.declared name List.mem_cons_self
  rw [hlookup] at hfound
  rw [(describe_eq_ok hdescribe).1, Option.some.inj hfound, hname]

/-- Describing the next pending name leads to the next state. -/
lemma step (h : source.Frontier graph (t.name :: rest)) (ht : source.Describes t)
    (hnew : graph.contains t.name = false) :
    source.Frontier (graph.add t) (rest ++ t.mentions) := by
  refine { h.toDescribes.add ht (Bool.eq_false_iff.mp hnew) with covered := ?_, declared := ?_ }
  · intro u hu other hother
    rcases List.mem_append.mp hu with hu | hu
    · exact contains_or_mem_of_described t (h.covered u hu other hother)
    · rw [List.mem_singleton] at hu
      exact Or.inr (List.mem_append_right _ (hu ▸ hother))
  · intro other hother
    rcases List.mem_append.mp hother with hother | hother
    · exact h.declared other (List.mem_cons_of_mem _ hother)
    · exact ht.declares_mentions other hother

end Frontier

/-- A bounded exploration follows the rules. -/
theorem explores_explore {steps : Nat} (hfrontier : source.Frontier graph pending)
    (hsteps : source.unit.types.length < steps + graph.types.length) :
    source.Explores pending graph (source.explore steps pending graph) := by
  induction steps generalizing pending graph with
  | zero =>
    -- The bound is never used up: there would be more described than declared types.
    have hle : graph.types.length ≤ source.unit.types.length := hfrontier.length_le
    omega
  | succ steps ih =>
    refine .of_dropWhile ?_
    have hskipped := hfrontier.dropWhile
    unfold explore
    split
    · next hdrop =>
      rw [hdrop]
      exact .done
    · next name rest hdrop =>
      have hnew := contains_eq_false_of_dropWhile hdrop
      rw [hdrop] at hskipped ⊢
      split
      · next hlookup => exact .undeclared hnew hlookup
      · next declared hlookup =>
        rw [Reported.bind_eq]
        rcases hdescribe : source.describe declared with ⟨findings, failure | t⟩
        · exact .refused hnew hlookup hdescribe
        · rw [Reported.andThen_ok]
          have hresult : (source.describe declared).result = .ok t := by rw [hdescribe]
          have ht : source.Describes t := Describes.of_lookup? hlookup hresult
          obtain rfl : t.name = name := hskipped.name_eq hlookup hresult
          have hsteps' : source.unit.types.length < steps + (graph.add t).types.length := by
            rw [TypeGraph.add, List.length_append, List.length_singleton]
            omega
          exact .described hnew hlookup hdescribe (ih (hskipped.step ht hnew) hsteps')

/-- What every step of an exploration keeps holds where it ends. -/
theorem Explores.kept {P : TypeGraph → List TypeName → Prop} {outcome : Reported TypeGraph}
    (h : source.Explores pending graph outcome) (hfrontier : source.Frontier graph pending)
    (hknown : ∀ graph name rest, graph.contains name = true → P graph (name :: rest) → P graph rest)
    (hdescribed : ∀ graph t rest, source.Describes t → graph.contains t.name = false →
      P graph (t.name :: rest) → P (graph.add t) (rest ++ t.mentions))
    (hstart : P graph pending) : ∀ final, outcome.result = .ok final → P final [] := by
  induction h with
  | done =>
    rintro final ⟨⟩
    exact hstart
  | known hmem _ ih => exact ih (hfrontier.known hmem) (hknown _ _ _ hmem hstart)
  | undeclared | refused => nofun
  | described hnew hlookup hdescribe _ ih =>
    have hresult := congrArg Reported.result hdescribe
    have ht := Describes.of_lookup? hlookup hresult
    obtain rfl := hfrontier.name_eq hlookup hresult
    exact ih (hfrontier.step ht hnew) (hdescribed _ _ _ ht hnew hstart)

/-- An exploration that succeeds ends with a closed graph. -/
lemma Explores.closed {outcome : Reported TypeGraph} (h : source.Explores pending graph outcome)
    (hfrontier : source.Frontier graph pending) (hfinal : outcome.result = .ok final) :
    final.Closed source :=
  (h.kept hfrontier (fun _ _ _ hmem hkept => hkept.known hmem)
    (fun _ _ _ ht hnew hkept => hkept.step ht hnew) hfrontier final hfinal).closed

/-- What is described or pending is described where an exploration ends. -/
lemma Explores.contains {outcome : Reported TypeGraph} (h : source.Explores pending graph outcome)
    (hfrontier : source.Frontier graph pending) (hfinal : outcome.result = .ok final)
    (hname : graph.contains name = true ∨ name ∈ pending) : final.contains name = true := by
  have hends := h.kept (P := fun graph pending => graph.contains name = true ∨ name ∈ pending)
    hfrontier (fun _ _ _ hknown => contains_or_mem_of_known hknown)
    (fun _ t _ _ _ => contains_or_mem_of_described t) hname final hfinal
  exact hends.resolve_right List.not_mem_nil

end TypeSource

namespace TypeGraph.Closed

variable {graph : TypeGraph} {source : TypeSource}

/-- An extracted graph is closed, and a declared root is described in it. -/
theorem of_extract {root : TypeName} (h : (source.extract root).result = .ok graph) :
    graph.Closed source ∧ (source.unit.Declares root → graph.contains root = true) := by
  unfold TypeSource.extract TypeSource.explore at h
  simp only [TypeGraph.contains, List.any_nil, List.dropWhile_cons_of_neg, Bool.false_eq_true,
    not_false_eq_true] at h
  split at h
  · cases h
  · next declared hlookup =>
    rw [Reported.bind_eq, Reported.result_andThen_eq_ok_iff] at h
    obtain ⟨t, hdescribe, hrest⟩ := h
    have ht : source.Describes t := TypeSource.Describes.of_lookup? hlookup hdescribe
    have hfirst := TypeSource.Frontier.first ht
    have hexplores : source.Explores t.mentions (TypeGraph.add {} t)
        (source.explore source.unit.types.length t.mentions (TypeGraph.add {} t)) :=
      TypeSource.explores_explore hfirst (by simp [TypeGraph.add])
    refine ⟨hexplores.closed hfirst hrest, ?_⟩
    rintro ⟨found, hfound, rfl⟩
    rw [hlookup] at hfound
    rw [← Option.some.inj hfound, ← (TypeSource.describe_eq_ok hdescribe).1]
    exact hexplores.contains hfirst hrest (Or.inl TypeGraph.contains_add_self)

end TypeGraph.Closed

end SchemaCompiler
