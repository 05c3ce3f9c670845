import SchemaCompiler.Proofs.CompilationUnit
import SchemaCompiler.Proofs.Definition.Session
import SchemaCompiler.Proofs.Generator.Independence

/-!
# The sessions of a run

A run over all roots has a session for each of them, and the sessions take their turns in any order.
Whatever the order, a document is one that its root has on its own (`document_eq_of_mem_results`),
so a root has the same document in all runs in which it has one.  Which roots fail can depend on the
order: of two types with one schema name the one that comes second fails.  If no two types that the
roots lead to have one schema name, every root has the result that it has on its own
(`results_eq_of_unambiguous`).
-/

namespace SchemaCompiler

/-- The roots of a unit are declared. -/
lemma CompilationUnit.Distinct.declares_of_mem_roots {unit : CompilationUnit} (h : unit.Distinct)
    {root : TypeName} (hroot : root ∈ unit.roots) : unit.Declares root := by
  obtain ⟨t, ht, rfl⟩ := List.mem_map.mp hroot
  exact ⟨t, (lookup?_eq_some_iff h).mpr ⟨(List.mem_filter.mp ht).1, rfl⟩, rfl⟩

namespace Generator

variable {g : Generator} {registry : Registry} {root : TypeName} {base : BaseUri} {d : Document}
  {turns other : List ℕ}

/-! ### Sessions one after another -/

/-- A session that runs alone generates the document of its root. -/
theorem run_session (g : Generator) (registry : Registry) (root : TypeName) :
    (g.session root).run registry = g.document registry root := by
  unfold session document
  cases g.baseUri with
  | error failure => rfl
  | ok base =>
    dsimp only
    cases (g.extract root).result with
    | error failure => rfl
    | ok graph =>
      dsimp only
      rw [Process.run_bind, Resolver.run_session]
      rfl

/-- Sessions that run one after another generate documents one after another. -/
lemma runEach_session (g : Generator) (registry : Registry) (roots : List TypeName) :
    (Process.runEach registry (roots.map g.session)).2.flatMap (·.1) =
        (g.documents registry roots).2.1 ∧
      roots.zip ((Process.runEach registry (roots.map g.session)).2.map (·.2)) =
        (g.documents registry roots).2.2 := by
  induction roots generalizing registry with
  | nil => exact ⟨rfl, rfl⟩
  | cons root roots ih =>
    obtain ⟨hfindings, hresults⟩ := ih (g.document registry root).1
    rw [List.map_cons, Process.runEach, run_session]
    exact ⟨congrArg ((g.document registry root).2.1 ++ ·) hfindings,
      congrArg ((root, (g.document registry root).2.2) :: ·) hresults⟩

/-! ### What the roots of a run lead to -/

/-- Some root leads to a type. -/
def Reaches (g : Generator) (base : BaseUri) (name : TypeName) : Prop :=
  ∃ root ∈ g.unit.roots, (g.catalog base).Leads root name

/-- No two types that the roots lead to have one schema name. -/
def Unambiguous (g : Generator) (base : BaseUri) : Prop :=
  ∀ t u, g.source.Describes t → g.source.Describes u → g.Reaches base t.name →
    g.Reaches base u.name → t.schemaName = u.schemaName → t.name = u.name

/-- The types that the roots lead to have distinct identifiers if their schema names differ. -/
lemma Unambiguous.distinct (h : g.Unambiguous base) :
    (g.catalog base).Distinct (g.Reaches base) :=
  fun t u ht hu hreachesT hreachesU hid =>
    h t u ht hu hreachesT hreachesU (base.identifier_injective hid)

/-- Types of different names can be told apart if their schema names differ. -/
lemma unambiguous_of_schemaName (h : ∀ t ∈ g.unit.types, ∀ u ∈ g.unit.types,
      TypeSource.schemaNameOf t = TypeSource.schemaNameOf u → t.name = u.name) :
    g.Unambiguous base :=
  fun t u ht hu hreachesT hreachesU hname =>
    Catalog.distinct_of_schemaName (c := g.catalog base) h t u ht hu hreachesT hreachesU
      (congrArg base.identifier hname)

/-- A declared root whose walk begins takes part in a run. -/
lemma Prepared.takesPart {graph : TypeGraph} (h : g.Prepared root base graph)
    (hroot : root ∈ g.unit.roots) (hdeclared : g.unit.Declares root) :
    (g.catalog base).TakesPart (g.Reaches base) graph root where
  closed := h.closed
  contains := (TypeGraph.Closed.of_extract h.extracted).2 hdeclared
  leads _ hleads := ⟨root, hroot, hleads⟩

/-! ### What the sessions come to -/

/-- What a root has come to in a run, seen from a later registry.  Its document is the one that it
has on its own, and it is read off a sound registry; a failure is one that it has with every
registry, or a collision among the types that it leads to. -/
def Settles (g : Generator) (base : BaseUri) (root : TypeName) (now : Registry) :
    Except Failure Document → Prop
  | .ok d => (g.document {} root).2.2 = .ok d ∧ ∃ seen : Registry, seen.Sound (g.catalog base) ∧
      seen.Evolves (g.catalog base) (g.Reaches base) now ∧ g.ReadOff seen root d
  | .error failure => (∀ registry, (g.document registry root).2.2 = .error failure) ∨
      ∃ stopped : Stopped, stopped.failure = failure ∧
        stopped.walk.registry.Evolves (g.catalog base) (g.Reaches base) now ∧
        (g.catalog base).Collides ((g.catalog base).Leads root) stopped

/-- A document that is read off a sound registry is the one that its root has on its own. -/
lemma Prepared.document_eq_of_readOff {graph : TypeGraph} (h : g.Prepared root base graph)
    (hdeclared : g.unit.Declares root) (hsound : registry.Sound (g.catalog base))
    (hread : g.ReadOff registry root d) : (g.document {} root).2.2 = .ok d := by
  -- The root is registered, so what it leads to has distinct identifiers.
  obtain ⟨e, he, rfl, -⟩ := id hread
  obtain ⟨walk, hwalk⟩ := Catalog.exists_walk_of_starts h.closed
    ((TypeGraph.Closed.of_extract h.extracted).2 hdeclared) (hsound.distinct he)
    Catalog.unobstructed_empty (Resolver.starts_walkFrom {} e.typeName)
  obtain ⟨d', hd', hread'⟩ := exists_readOff h .empty hwalk
  rw [hd', hread.unique hsound (sound_document h.base .empty e.typeName) hread']

/-- The session of a root settles it, whatever the sessions of other roots do in between. -/
theorem keeps_session (hunit : g.unit.Distinct) (hbase : g.config.baseUri = some base)
    (hroot : root ∈ g.unit.roots) :
    (g.session root).Keeps (Registry.Evolves (g.catalog base) (g.Reaches base))
      (fun now answer => g.Settles base root now answer.2) {} := by
  have hdeclared := hunit.declares_of_mem_roots hroot
  cases hextract : (g.extract root).result with
  | error failure =>
    have hsession : g.session root = .done ((g.extract root).findings, .error failure) := by
      simp [session, baseUri, hbase, hextract]
    rw [hsession]
    refine fun now _ => Or.inl fun registry => ?_
    simp [document, baseUri, hbase, hextract]
  | ok graph =>
    have hprepared : g.Prepared root base graph := ⟨hbase, hextract⟩
    have hsession : g.session root = (do
        let answer ← ((g.catalog base).resolver graph).session root
        return ((g.extract root).findings ++ answer.1,
          answer.2.map (Document.ofRoot g.config.draft))) := by
      simp only [session, baseUri, hbase, hextract]
      rfl
    rw [hsession]
    refine Process.Keeps.bind
      (Resolver.keeps_session (hprepared.takesPart hroot hdeclared) (refl _)) ?_
    rintro now ⟨found, failure | resolved⟩ - hanswer later hlater
    · obtain ⟨stopped, hfailure, hseen, hcollides⟩ := hanswer later hlater
      exact Or.inr ⟨stopped, hfailure, hseen, hcollides⟩
    · obtain ⟨seen, hsound, hseen, hmem, hname, hpreorder⟩ := hanswer later hlater
      have hread : g.ReadOff seen root (Document.ofRoot g.config.draft resolved) :=
        ⟨_, hmem, hname, _, hpreorder, rfl⟩
      exact ⟨hprepared.document_eq_of_readOff hdeclared hsound hread, seen, hsound, hseen, hread⟩

/-! ### The results of a run -/

/-- The registry after a run whose sessions take some turns, and what the sessions come to. -/
def answers (g : Generator) (turns : List ℕ) :
    Registry × List (List Diagnostic × Except Failure Document) :=
  Process.runAll turns {} (g.unit.roots.map g.session)

/-- The results of all roots in a run whose sessions take some turns. -/
def results (g : Generator) (turns : List ℕ) : List RootResult :=
  g.unit.roots.zip ((g.answers turns).2.map (·.2))

/-- With a base URI, every root gets its result. -/
lemma generateAll_eq (hbase : g.config.baseUri = some base) (turns : List ℕ) :
    g.generateAll turns =
      (g.withFindings ((g.answers turns).2.flatMap (·.1)), .ok (g.results turns)) := by
  simp [generateAll, baseUri, hbase, results, answers]

/-- Without turns the documents of all roots are generated one after another. -/
lemma generateAll_eq_documents (hbase : g.config.baseUri = some base) :
    g.generateAll = (g.withFindings (g.documents {} g.unit.roots).2.1,
      .ok (g.documents {} g.unit.roots).2.2) := by
  obtain ⟨hfindings, hresults⟩ := g.runEach_session {} g.unit.roots
  rw [generateAll_eq hbase, ← hfindings, ← hresults]
  rfl

/-- The sessions of a run settle all roots, and what they do to the registry is allowed. -/
lemma settles_answers (hunit : g.unit.Distinct) (hbase : g.config.baseUri = some base)
    (turns : List ℕ) :
    Registry.Evolves (g.catalog base) (g.Reaches base) {} (g.answers turns).1 ∧
      List.Forall₂ (fun root answer => g.Settles base root (g.answers turns).1 answer.2)
        g.unit.roots (g.answers turns).2 := by
  let post (root : TypeName) (now : Registry)
      (answer : List Diagnostic × Except Failure Document) : Prop :=
    g.Settles base root now answer.2
  have hsessions : List.Forall₂ (fun root (p : Process Registry _) =>
      p.Keeps (Registry.Evolves (g.catalog base) (g.Reaches base)) (post root) {})
      g.unit.roots (g.unit.roots.map g.session) := by
    rw [List.forall₂_map_right_iff]
    exact List.forall₂_same.mpr fun root hroot => keeps_session hunit hbase hroot
  exact Process.Keeps.runAll turns hsessions

/-- The results of a run belong to its roots, in order. -/
lemma map_fst_results (hunit : g.unit.Distinct) (hbase : g.config.baseUri = some base)
    (turns : List ℕ) : (g.results turns).map (·.1) = g.unit.roots := by
  have hlength := (settles_answers hunit hbase turns).2.length_eq
  rw [results, List.map_fst_zip]
  rw [List.length_map]
  exact Nat.le_of_eq hlength

/-- Each result of a run settles its root. -/
theorem settles_of_mem_results (hunit : g.unit.Distinct) (hbase : g.config.baseUri = some base)
    {result : Except Failure Document} (h : (root, result) ∈ g.results turns) :
    g.Settles base root (g.answers turns).1 result := by
  have hsettled := (settles_answers hunit hbase turns).2
  have hresults : List.Forall₂ (fun root result => g.Settles base root (g.answers turns).1 result)
      g.unit.roots ((g.answers turns).2.map (·.2)) := List.forall₂_map_right_iff.mpr hsettled
  exact List.forall₂_zip hresults h

/-- A root that has a document in a run has the same document on its own, in whatever order the
sessions of the run take their steps. -/
theorem document_eq_of_mem_results (hunit : g.unit.Distinct) (hbase : g.config.baseUri = some base)
    (h : (root, .ok d) ∈ g.results turns) : (g.document {} root).2.2 = .ok d :=
  (settles_of_mem_results hunit hbase h).1

/-- If no two types that the roots lead to have one schema name, no root collides with another. -/
lemma not_collides_of_unambiguous (hunit : g.unit.Distinct) (hbase : g.config.baseUri = some base)
    (h : g.Unambiguous base) (hroot : root ∈ g.unit.roots) {stopped : Stopped}
    (hseen : stopped.walk.registry.Evolves (g.catalog base) (g.Reaches base)
      (g.answers turns).1) :
    ¬(g.catalog base).Collides ((g.catalog base).Leads root) stopped := by
  rintro ⟨t, owner, ht, hleads, hcollides⟩
  have hclaims := hseen.claimsFor_of_later (settles_answers hunit hbase turns).1.claims
  exact Catalog.not_collides h.distinct Catalog.unobstructed_empty hclaims
    ⟨t, owner, ht, ⟨root, hroot, hleads⟩, hcollides⟩

/-- If no two types that the roots lead to have one schema name, every root has the result that it
has on its own, in whatever order the sessions take their steps. -/
theorem results_eq_of_unambiguous (hunit : g.unit.Distinct) (hbase : g.config.baseUri = some base)
    (h : g.Unambiguous base) (turns : List ℕ) :
    g.results turns = g.unit.roots.map fun root => (root, (g.document {} root).2.2) := by
  have halone : ∀ result ∈ g.results turns,
      result = (result.1, (g.document {} result.1).2.2) := by
    rintro ⟨root, failure | d⟩ hmem
    · rcases settles_of_mem_results hunit hbase hmem with hfailure | ⟨stopped, -, hseen, hcollides⟩
      · rw [hfailure {}]
      · exact absurd hcollides
          (not_collides_of_unambiguous hunit hbase h (List.of_mem_zip hmem).1 hseen)
    · rw [document_eq_of_mem_results hunit hbase hmem]
  rw [← map_fst_results hunit hbase turns, List.map_map]
  exact (List.map_id _).symm.trans (List.map_congr_left halone)

end Generator

end SchemaCompiler
