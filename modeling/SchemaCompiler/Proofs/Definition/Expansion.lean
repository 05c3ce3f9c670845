import SchemaCompiler.Proofs.Definition.ForeignClaims
import SchemaCompiler.Proofs.Definition.Soundness
import SchemaCompiler.Proofs.Nesting

/-!
# Expansions of a walk

Which types a walk builds, and how often.  `Resolver.Expands` repeats the rules of a walk and notes
each type when its building begins, whether or not the walk succeeds in the end.  What is built is
new to the walk, and known from then on, so no identifier is built twice (`Expands.expansion`).

Types are built inside each other.  `Resolver.Nests` says that the building of one type begins
directly inside that of another.  There is no infinite chain of such beginnings
(`wellFounded_nests`): each of them adds an identifier of the graph to those that are being built.

The main statement is `Resolver.walkFrom_expands`.
-/

namespace SchemaCompiler.Resolver

variable {r : Resolver} {registry : Registry} {root : TypeName} {walk : Walk}
  {names : List TypeName} {built : List TypeDescription} {result : Except Stopped Walk}

/-- The rules of a walk over names, with the types that it builds, in the order in which their
building begins. -/
inductive Expands (r : Resolver) :
    Walk → List TypeName → List TypeDescription → Except Stopped Walk → Prop
  /-- No name is left. -/
  | done {walk : Walk} : Expands r walk [] [] (.ok walk)
  /-- The next name has no description. -/
  | undescribed {walk : Walk} {name : TypeName} {rest : List TypeName} {failure : Failure}
      (hname : r.described name = .error failure) :
      Expands r walk (name :: rest) [] (.error ⟨walk, failure⟩)
  /-- The identifier of the next type belongs to another type. -/
  | collided {walk : Walk} {name : TypeName} {rest : List TypeName} {t : TypeDescription}
      {stopped : Stopped} (hname : r.described name = .ok t)
      (hclaim : r.claim walk t = .error stopped) :
      Expands r walk (name :: rest) [] (.error stopped)
  /-- The next type has a definition or is being built, so it is not built. -/
  | known {walk claimed : Walk} {name : TypeName} {rest : List TypeName} {t : TypeDescription}
      {later : List TypeDescription} {result : Except Stopped Walk}
      (hname : r.described name = .ok t) (hclaim : r.claim walk t = .ok claimed)
      (hknown : claimed.knows (r.identifier t) = true)
      (hrest : Expands r claimed rest later result) :
      Expands r walk (name :: rest) later result
  /-- The building of the next type begins, and fails. -/
  | stopped {walk claimed : Walk} {name : TypeName} {rest : List TypeName} {t : TypeDescription}
      {inside : List TypeDescription} {stopped : Stopped} (hname : r.described name = .ok t)
      (hclaim : r.claim walk t = .ok claimed) (hnew : claimed.knows (r.identifier t) = false)
      (hinner : Expands r (r.enter claimed t) (r.config.build t).mentions inside
        (.error stopped)) :
      Expands r walk (name :: rest) (t :: inside) (.error stopped)
  /-- The building of the next type begins, and ends. -/
  | built {walk claimed inner : Walk} {name : TypeName} {rest : List TypeName}
      {t : TypeDescription} {inside later : List TypeDescription} {result : Except Stopped Walk}
      (hname : r.described name = .ok t) (hclaim : r.claim walk t = .ok claimed)
      (hnew : claimed.knows (r.identifier t) = false)
      (hinner : Expands r (r.enter claimed t) (r.config.build t).mentions inside (.ok inner))
      (hrest : Expands r (r.leave inner t) rest later result) :
      Expands r walk (name :: rest) (t :: inside ++ later) result

/-- The rules of the walk of a root, with the types that it builds.  The root is built first,
whether or not its definition is there. -/
inductive ExpandsFrom (r : Resolver) (registry : Registry) (root : TypeName) :
    List TypeDescription → Except Stopped Walk → Prop
  | undescribed {failure : Failure} (hname : r.described root = .error failure) :
      ExpandsFrom r registry root [] (.error ⟨{ registry }, failure⟩)
  | collided {t : TypeDescription} {stopped : Stopped} (hname : r.described root = .ok t)
      (hclaim : r.claim { registry } t = .error stopped) :
      ExpandsFrom r registry root [] (.error stopped)
  | started {t : TypeDescription} {claimed : Walk} {inside : List TypeDescription}
      {result : Except Stopped Walk} (hname : r.described root = .ok t)
      (hclaim : r.claim { registry } t = .ok claimed)
      (hinner : Expands r (r.enter claimed t) (r.config.build t).mentions inside result) :
      ExpandsFrom r registry root (t :: inside) (result.map fun inner => r.leave inner t)

/-! ### Every walk has its expansions -/

/-- A walk that notes what it builds is a walk. -/
theorem Expands.visits (h : r.Expands walk names built result) : r.Visits walk names result := by
  induction h with
  | done => exact .done
  | undescribed hname => exact .undescribed hname
  | collided hname hclaim => exact .collided hname hclaim
  | known hname hclaim hknown _ ih => exact .known hname hclaim hknown ih
  | stopped hname hclaim hnew _ ih => exact .stopped hname hclaim hnew ih
  | built hname hclaim hnew _ _ ihinner ihrest => exact .built hname hclaim hnew ihinner ihrest

/-- What a walk builds can be noted. -/
theorem Visits.exists_expands (h : r.Visits walk names result) :
    ∃ built, r.Expands walk names built result := by
  induction h with
  | done => exact ⟨[], .done⟩
  | undescribed hname => exact ⟨[], .undescribed hname⟩
  | collided hname hclaim => exact ⟨[], .collided hname hclaim⟩
  | known hname hclaim hknown _ ih =>
    obtain ⟨later, hlater⟩ := ih
    exact ⟨later, .known hname hclaim hknown hlater⟩
  | @stopped _ _ _ _ t _ hname hclaim hnew _ ih =>
    obtain ⟨inside, hinside⟩ := ih
    exact ⟨t :: inside, .stopped hname hclaim hnew hinside⟩
  | @built _ _ _ _ _ t _ hname hclaim hnew _ _ ihinner ihrest =>
    obtain ⟨inside, hinside⟩ := ihinner
    obtain ⟨later, hlater⟩ := ihrest
    exact ⟨t :: inside ++ later, .built hname hclaim hnew hinside hlater⟩

/-- A walk of a root that notes what it builds is a walk of the root. -/
theorem ExpandsFrom.starts (h : r.ExpandsFrom registry root built result) :
    r.Starts registry root result := by
  cases h with
  | undescribed hname => exact .undescribed hname
  | collided hname hclaim => exact .collided hname hclaim
  | @started t claimed inside result hname hclaim hinner =>
    cases result with
    | error stopped => exact .stopped hname hclaim hinner.visits
    | ok inner => exact .built hname hclaim hinner.visits

/-- What the walk of a root builds can be noted. -/
theorem Starts.exists_expandsFrom (h : r.Starts registry root result) :
    ∃ built, r.ExpandsFrom registry root built result := by
  cases h with
  | undescribed hname => exact ⟨[], .undescribed hname⟩
  | collided hname hclaim => exact ⟨[], .collided hname hclaim⟩
  | @stopped t _ _ hname hclaim hinner =>
    obtain ⟨inside, hinside⟩ := hinner.exists_expands
    exact ⟨t :: inside, .started hname hclaim hinside⟩
  | @built t _ _ hname hclaim hinner =>
    obtain ⟨inside, hinside⟩ := hinner.exists_expands
    exact ⟨t :: inside, .started hname hclaim hinside⟩

/-! ### Nothing is built twice -/

/-- Types of the graph that are new to a walk and have distinct identifiers. -/
structure Expansion (r : Resolver) (walk : Walk) (built : List TypeDescription) : Prop where
  subset : built ⊆ r.graph.types
  new : ∀ t ∈ built, walk.knows (r.identifier t) = false
  nodup : (built.map r.identifier).Nodup

namespace Expansion

variable {claimed next : Walk} {t : TypeDescription} {inside later : List TypeDescription}

/-- Nothing is built. -/
lemma nil : r.Expansion walk [] := ⟨List.nil_subset _, nofun, List.nodup_nil⟩

/-- What is new after a claim was new before it. -/
lemma of_claim (h : r.Expansion claimed built) (hclaim : r.claim walk t = .ok claimed) :
    r.Expansion walk built where
  subset := h.subset
  new := fun u hu => (Walk.knows_of_claim hclaim _).symm.trans (h.new u hu)
  nodup := h.nodup

/-- What is built inside of a type was new before the type was entered, and differs from it. -/
lemma new_of_enter (h : r.Expansion (r.enter walk t) inside) :
    ∀ u ∈ inside, r.identifier u ≠ r.identifier t ∧ walk.knows (r.identifier u) = false := by
  intro u hu
  have hunknown : ¬(r.enter walk t).knows (r.identifier u) = true := by
    rw [h.new u hu]
    exact Bool.false_ne_true
  rw [Walk.knows_enter, not_or, Bool.not_eq_true] at hunknown
  exact hunknown

/-- A type and what is built inside of it have distinct identifiers. -/
lemma nodup_cons (h : r.Expansion (r.enter walk t) inside) :
    ((t :: inside).map r.identifier).Nodup := by
  rw [List.map_cons, List.nodup_cons]
  refine ⟨fun hmem => ?_, h.nodup⟩
  obtain ⟨u, hu, hid⟩ := List.mem_map.mp hmem
  exact (h.new_of_enter u hu).1 hid

/-- A new type and what is built inside of it are new. -/
lemma cons (h : r.Expansion (r.enter walk t) inside) (ht : t ∈ r.graph.types)
    (hnew : walk.knows (r.identifier t) = false) : r.Expansion walk (t :: inside) where
  subset := List.cons_subset.mpr ⟨ht, h.subset⟩
  new := List.forall_mem_cons.mpr ⟨hnew, fun u hu => (h.new_of_enter u hu).2⟩
  nodup := h.nodup_cons

/-- What is built in two parts differs, if the first part is known when the second begins. -/
lemma append (h : r.Expansion walk built) (h' : r.Expansion next later)
    (hnext : walk.Precedes next) (hbuilt : ∀ t ∈ built, next.knows (r.identifier t) = true) :
    r.Expansion walk (built ++ later) where
  subset := List.append_subset.mpr ⟨h.subset, h'.subset⟩
  new := by
    refine List.forall_mem_append.mpr ⟨h.new, fun t ht => ?_⟩
    by_contra hknown
    have hlater := hnext.knows (Bool.eq_true_of_not_eq_false hknown)
    rw [h'.new t ht] at hlater
    cases hlater
  nodup := by
    rw [List.map_append, List.nodup_append]
    refine ⟨h.nodup, h'.nodup, ?_⟩
    rintro id hid other hother rfl
    obtain ⟨t, ht, rfl⟩ := List.mem_map.mp hid
    obtain ⟨u, hu, heq⟩ := List.mem_map.mp hother
    have hknown := hbuilt t ht
    rw [← heq, h'.new u hu] at hknown
    cases hknown

end Expansion

/-- A successful walk leads to a later state, in which all that it has built is known. -/
lemma Expands.precedes (h : r.Expands walk names built result) :
    ∀ final, result = .ok final →
      walk.Precedes final ∧ ∀ t ∈ built, final.knows (r.identifier t) = true := by
  induction h with
  | done =>
    rintro final ⟨⟩
    exact ⟨⟨fun howner => howner, fun hknows => hknows⟩, nofun⟩
  | undescribed | collided | stopped => nofun
  | known _ hclaim _ _ ih =>
    intro final hfinal
    obtain ⟨hrest, hlater⟩ := ih final hfinal
    exact ⟨(Walk.precedes_of_claim hclaim).trans hrest, hlater⟩
  | @built walk claimed inner name rest t inside later _ _ hclaim _ _ _ ihinner ihrest =>
    intro final hfinal
    obtain ⟨hinner, hinside⟩ := ihinner inner rfl
    obtain ⟨hrest, hlater⟩ := ihrest final hfinal
    have hleft : inner.Precedes final := Walk.precedes_leave.trans hrest
    have hentered : claimed.Precedes inner := Walk.precedes_enter.trans hinner
    refine ⟨(Walk.precedes_of_claim hclaim).trans (hentered.trans hleft), ?_⟩
    have hself : (r.enter claimed t).knows (r.identifier t) = true :=
      (Walk.knows_enter _).mpr (Or.inl rfl)
    refine List.forall_mem_append.mpr ⟨List.forall_mem_cons.mpr ⟨?_, fun u hu => ?_⟩, hlater⟩
    · exact hleft.knows (hinner.knows hself)
    · exact hleft.knows (hinside u hu)

/-- What a walk builds is new, and nothing is built twice. -/
theorem Expands.expansion (h : r.Expands walk names built result) : r.Expansion walk built := by
  induction h with
  | done => exact .nil
  | undescribed => exact .nil
  | collided => exact .nil
  | known _ hclaim _ _ ih => exact ih.of_claim hclaim
  | stopped hname hclaim hnew _ ih =>
    have ht := (TypeGraph.mem_of_get? (described_eq_ok_iff.mp hname)).1
    exact (ih.cons ht hnew).of_claim hclaim
  | @built walk claimed inner name rest t inside later _ hname hclaim hnew hinner _ ihinner
      ihrest =>
    have ht := (TypeGraph.mem_of_get? (described_eq_ok_iff.mp hname)).1
    obtain ⟨hprecedes, hinside⟩ := hinner.precedes inner rfl
    have hself : (r.enter claimed t).knows (r.identifier t) = true :=
      (Walk.knows_enter _).mpr (Or.inl rfl)
    have hleft : claimed.Precedes (r.leave inner t) :=
      Walk.precedes_enter.trans (hprecedes.trans Walk.precedes_leave)
    refine ((ihinner.cons ht hnew).append ihrest hleft ?_).of_claim hclaim
    refine List.forall_mem_cons.mpr ⟨?_, fun u hu => ?_⟩
    · exact Walk.precedes_leave.knows (hprecedes.knows hself)
    · exact Walk.precedes_leave.knows (hinside u hu)

/-- Of types of the graph that have distinct identifiers there are no more than the graph has. -/
lemma length_le_of_nodup (hsubset : built ⊆ r.graph.types)
    (hnodup : (built.map r.identifier).Nodup) : built.length ≤ r.graph.types.length := by
  have hle := hnodup.length_le_of_subset (List.map_subset r.identifier hsubset)
  rwa [List.length_map, List.length_map] at hle

/-- The walk of a root builds nothing twice, and besides the root nothing that was registered. -/
theorem ExpandsFrom.distinct (h : r.ExpandsFrom registry root built result) :
    (built.map r.identifier).Nodup ∧
      (∀ t ∈ built.tail, registry.contains (r.identifier t) = false) ∧
      built.length ≤ r.graph.types.length := by
  cases h with
  | undescribed => exact ⟨List.nodup_nil, nofun, Nat.zero_le _⟩
  | collided => exact ⟨List.nodup_nil, nofun, Nat.zero_le _⟩
  | @started t claimed inside inner hname hclaim hinner =>
    have ht := (TypeGraph.mem_of_get? (described_eq_ok_iff.mp hname)).1
    have hinside : r.Expansion (r.enter claimed t) inside := hinner.expansion
    refine ⟨hinside.nodup_cons, fun u hu => ?_, ?_⟩
    · have hnew := (hinside.new_of_enter u hu).2
      rw [Walk.knows_of_claim hclaim] at hnew
      exact (Bool.or_eq_false_iff.mp hnew).2
    · exact length_le_of_nodup (List.cons_subset.mpr ⟨ht, hinside.subset⟩) hinside.nodup_cons

/-! ### Nested expansions -/

/-- In the first state the building of the first type begins, as a part of that of the second type,
which began in the second state. -/
inductive Nests (r : Resolver) : Walk × TypeDescription → Walk × TypeDescription → Prop
  /-- The mentions before this one were visited, and the type is new. -/
  | intro {outer reached claimed : Walk} {t u : TypeDescription} {name : TypeName}
      {before after : List TypeName}
      (hmentions : (r.config.build t).mentions = before ++ name :: after)
      (hbefore : r.Visits (r.enter outer t) before (.ok reached))
      (hname : r.described name = .ok u) (hclaim : r.claim reached u = .ok claimed)
      (hnew : claimed.knows (r.identifier u) = false) :
      Nests r (claimed, u) (outer, t)

/-- The identifiers that are being built once a type is entered. -/
def entered (r : Resolver) (state : Walk × TypeDescription) : List CanonicalId :=
  (r.enter state.1 state.2).visiting

/-- A type that is built inside of another one is entered besides all that are being built. -/
lemma Nests.entered_eq {inner outer : Walk × TypeDescription} (h : r.Nests inner outer) :
    r.entered inner = r.identifier inner.2 :: r.entered outer := by
  cases h with
  | @intro outer reached claimed t u name before after _ hbefore _ hclaim _ =>
    have hvisiting : claimed.visiting = (r.enter outer t).visiting := by
      rw [visiting_of_claim hclaim, hbefore.visiting_eq reached rfl]
    exact congrArg (r.identifier u :: ·) hvisiting

/-- A type that is built inside of another one is a type of the graph that is not being built. -/
lemma Nests.new {inner outer : Walk × TypeDescription} (h : r.Nests inner outer) :
    inner.2 ∈ r.graph.types ∧ r.identifier inner.2 ∉ r.entered outer := by
  have hentered := h.entered_eq
  cases h with
  | @intro outer reached claimed t u name before after _ _ hname _ hnew =>
    refine ⟨(TypeGraph.mem_of_get? (described_eq_ok_iff.mp hname)).1, fun hmem => ?_⟩
    have hvisiting : claimed.visiting = r.entered (outer, t) := (List.cons.inj hentered).2
    rw [← hvisiting] at hmem
    simp [Walk.knows, hmem] at hnew

/-- Types are not built inside each other without end, in whatever state of a walk. -/
theorem wellFounded_nests (r : Resolver) : WellFounded r.Nests := by
  refine wellFounded_of_entering (r.graph.types.map r.identifier) r.entered ?_
  intro inner outer hnests
  obtain ⟨htypes, hnew⟩ := hnests.new
  rw [hnests.entered_eq]
  exact ⟨List.subset_cons_self _ _, _, List.mem_map_of_mem htypes, hnew, List.mem_cons_self⟩

/-- The walk of a root ends by itself, for every graph and every registry: types are not built
inside each other without end, and the walk follows its rules to an end.  It begins to build each
identifier at most once, and besides the root it builds no type that was registered, so it builds no
more types than the graph has. -/
theorem walkFrom_expands (r : Resolver) (registry : Registry) (root : TypeName) :
    WellFounded r.Nests ∧
      (∃ built, r.ExpandsFrom registry root built (r.walkFrom registry root)) ∧
      ∀ built result, r.ExpandsFrom registry root built result →
        result = r.walkFrom registry root ∧
        (built.map r.identifier).Nodup ∧
        (∀ t ∈ built.tail, registry.contains (r.identifier t) = false) ∧
        built.length ≤ r.graph.types.length := by
  have hstarts : r.Starts registry root (r.walkFrom registry root) := starts_walkFrom registry root
  refine ⟨r.wellFounded_nests, hstarts.exists_expandsFrom, fun built result hbuilt => ?_⟩
  exact ⟨hbuilt.starts.unique hstarts, hbuilt.distinct⟩

/-- A type that has no texts and is no root. -/
def shape (name : String) (kind : TypeKind) : TypeDescription where
  name := .topLevel "geometry" name
  schemaName := name
  kind
  title := none
  description := none
  isRoot := false

/-- Shapes are squares, groups of shapes or dots, and squares are made of dots. -/
def shapes : Resolver where
  graph :=
    { types :=
      [ shape "Shape" (.union "kind"
          [ ⟨"square", .topLevel "geometry" "Square"⟩, ⟨"group", .topLevel "geometry" "Group"⟩,
            ⟨"dot", .topLevel "geometry" "Dot"⟩ ]),
        shape "Square" (.object [] (some (.named (.topLevel "geometry" "Dot")))),
        shape "Group" (.object [] (some (.named (.topLevel "geometry" "Shape")))),
        shape "Dot" (.enum ["black", "white"]) ] }
  config := {}
  base := ⟨"https://example.com"⟩

/-- Once the dots are registered, the walk of the shapes builds the shapes, the squares and the
groups, although the groups lead back to the shapes and the squares to the dots. -/
theorem expands_shapes : ∃ registry built,
    (resolve shapes {} (.topLevel "geometry" "Dot")).1 = registry ∧
    shapes.ExpandsFrom registry (.topLevel "geometry" "Shape") built
      (shapes.walkFrom registry (.topLevel "geometry" "Shape")) ∧
    built.map (·.schemaName) = ["Shape", "Square", "Group"] ∧
    (built.map shapes.identifier).Nodup ∧
    (∀ t ∈ built.tail, registry.contains (shapes.identifier t) = false) ∧
    built.length ≤ 4 := by
  have hrules : ∃ built result,
      shapes.ExpandsFrom (resolve shapes {} (.topLevel "geometry" "Dot")).1
        (.topLevel "geometry" "Shape") built result ∧
      built.map (·.schemaName) = ["Shape", "Square", "Group"] := by
    apply Exists.intro
    apply Exists.intro
    apply And.intro
    · apply ExpandsFrom.started rfl rfl
      apply Expands.built rfl rfl rfl
      · exact .known rfl rfl rfl .done
      apply Expands.built rfl rfl rfl
      · exact .known rfl rfl rfl .done
      exact .known rfl rfl rfl .done
    · rfl
  obtain ⟨built, result, hbuilt, hnames⟩ := hrules
  obtain ⟨hresult, hdistinct⟩ := (walkFrom_expands shapes _ _).2.2 built result hbuilt
  rw [hresult] at hbuilt
  exact ⟨_, built, rfl, hbuilt, hnames, hdistinct⟩

end SchemaCompiler.Resolver
