import Mathlib.Data.List.Forall2
import Mathlib.Data.Option.Basic
import SchemaCompiler.Proofs.Definition.Expansion

/-!
# Resolution as substitution

What is staged for a type is its built schema with every placeholder replaced by the reference that
its name leads to, and nothing else changed (`Resolver.expand_substitutes`).  Neither the types that
are being built nor what is staged or registered makes a difference.

`Node.Replaced` says in rules which schemas come of another one by such a replacement, and
`Resolver.rewrite` replaces the placeholders of a schema one after another while the types that they
name are built.  The walk over all mentions with the substitution at its end does the same
(`Resolver.rewrite_visit`).
-/

namespace SchemaCompiler

namespace Node

variable {leads : TypeName → CanonicalId → Prop} {f : TypeName → CanonicalId}

/-! ### Replacing placeholders -/

/-- The second schema is the first one with each placeholder replaced by a reference with the same
keywords to where its name leads. -/
inductive Replaced (leads : TypeName → CanonicalId → Prop) : Node → Node → Prop
  | nominal {name : TypeName} {target : CanonicalId} {k : Keywords} (h : leads name target) :
      Replaced leads (nominal name k) (ref target k)
  | any {k : Keywords} : Replaced leads (any k) (any k)
  | null {k : Keywords} : Replaced leads (null k) (null k)
  | scalar {primitive : Primitive} {k : Keywords} :
      Replaced leads (scalar primitive k) (scalar primitive k)
  | enum {values : List String} {k : Keywords} : Replaced leads (enum values k) (enum values k)
  | ref {target : CanonicalId} {k : Keywords} : Replaced leads (ref target k) (ref target k)
  | array {items items' : Node} {k : Keywords} (h : Replaced leads items items') :
      Replaced leads (array items k) (array items' k)
  | nullable {inner inner' : Node} (h : Replaced leads inner inner') :
      Replaced leads (nullable inner) (nullable inner')
  | oneOf {variants variants' : List Node} {k : Keywords}
      (h : List.Forall₂ (Replaced leads) variants variants') :
      Replaced leads (oneOf variants k) (oneOf variants' k)
  | object {typed : Bool} {allOf allOf' : List Node} {properties properties' : List (String × Node)}
      {required : List String} {additional additional' : Option Node} {k : Keywords}
      (hallOf : List.Forall₂ (Replaced leads) allOf allOf')
      (hnames : properties.map (·.1) = properties'.map (·.1))
      (hproperties : List.Forall₂ (Replaced leads) (properties.map (·.2)) (properties'.map (·.2)))
      (hadditional : Option.Rel (Replaced leads) additional additional') :
      Replaced leads (object typed allOf properties required additional k)
        (object typed allOf' properties' required additional' k)

mutual

/-- If each mention leads to one target, the replaced schema is the linked one. -/
theorem replaced_iff : ∀ n : Node,
    (∀ name ∈ n.mentions, ∀ target, leads name target ↔ target = f name) →
      ∀ m, Replaced leads n m ↔ m = n.link f
  | nominal name k, h, m => by
    have hname := h name (by rw [mentions]; exact List.mem_singleton_self name)
    rw [link]
    constructor
    · intro hm
      cases hm with
      | nominal htarget => rw [(hname _).mp htarget]
    · rintro rfl
      exact .nominal ((hname _).mpr rfl)
  | any _, _, m | null _, _, m | scalar _ _, _, m | enum _ _, _, m | ref _ _, _, m => by
    rw [link]
    constructor
    · intro hm
      cases hm
      rfl
    · rintro rfl
      constructor
  | array items k, h, m => by
    rw [mentions] at h
    rw [link]
    constructor
    · intro hm
      cases hm with
      | array hitems => rw [(replaced_iff items h _).mp hitems]
    · rintro rfl
      exact .array ((replaced_iff items h _).mpr rfl)
  | nullable inner, h, m => by
    rw [mentions] at h
    rw [link]
    constructor
    · intro hm
      cases hm with
      | nullable hinner => rw [(replaced_iff inner h _).mp hinner]
    · rintro rfl
      exact .nullable ((replaced_iff inner h _).mpr rfl)
  | oneOf variants k, h, m => by
    rw [mentions] at h
    rw [link]
    constructor
    · intro hm
      cases hm with
      | oneOf hvariants => rw [(forall₂_replaced_iff variants h _).mp hvariants]
    · rintro rfl
      exact .oneOf ((forall₂_replaced_iff variants h _).mpr rfl)
  | object typed allOf properties required additional k, h, m => by
    rw [mentions, List.forall_mem_append, List.forall_mem_append] at h
    rw [link]
    constructor
    · intro hm
      cases hm with
      | object hallOf hnames hproperties hadditional =>
        rw [(forall₂_replaced_iff allOf h.1.1 _).mp hallOf,
          (forall₂_replaced_properties_iff properties h.1.2 _).mp ⟨hnames, hproperties⟩,
          (rel_replaced_iff additional h.2 _).mp hadditional]
    · rintro rfl
      obtain ⟨hnames, hproperties⟩ :=
        (forall₂_replaced_properties_iff properties h.1.2 _).mpr rfl
      exact .object ((forall₂_replaced_iff allOf h.1.1 _).mpr rfl) hnames hproperties
        ((rel_replaced_iff additional h.2 _).mpr rfl)
termination_by structural n => n

/-- If each mention leads to one target, the replaced schemas are the linked ones. -/
theorem forall₂_replaced_iff : ∀ ns : List Node,
    (∀ name ∈ mentionsOfList ns, ∀ target, leads name target ↔ target = f name) →
      ∀ ms, List.Forall₂ (Replaced leads) ns ms ↔ ms = linkList f ns
  | [], _, ms => by
    rw [linkList]
    exact List.forall₂_nil_left_iff
  | n :: ns, h, ms => by
    rw [mentionsOfList, List.forall_mem_append] at h
    rw [linkList]
    constructor
    · intro hms
      obtain ⟨m, rest, hn, hns, rfl⟩ := List.forall₂_cons_left_iff.mp hms
      rw [(replaced_iff n h.1 m).mp hn, (forall₂_replaced_iff ns h.2 rest).mp hns]
    · rintro rfl
      exact .cons ((replaced_iff n h.1 _).mpr rfl) ((forall₂_replaced_iff ns h.2 _).mpr rfl)
termination_by structural ns => ns

/-- If each mention leads to one target, the replaced properties are the linked ones. -/
theorem forall₂_replaced_properties_iff : ∀ ps : List (String × Node),
    (∀ name ∈ mentionsOfProperties ps, ∀ target, leads name target ↔ target = f name) →
      ∀ qs, ps.map (·.1) = qs.map (·.1) ∧
          List.Forall₂ (Replaced leads) (ps.map (·.2)) (qs.map (·.2)) ↔ qs = linkProperties f ps
  | [], _, qs => by
    rw [linkProperties]
    constructor
    · rintro ⟨hnames, -⟩
      exact List.map_eq_nil_iff.mp hnames.symm
    · rintro rfl
      exact ⟨rfl, .nil⟩
  | (name, n) :: ps, h, qs => by
    rw [mentionsOfProperties, List.forall_mem_append] at h
    rw [linkProperties]
    constructor
    · rintro ⟨hnames, hnodes⟩
      cases qs with
      | nil => cases hnames
      | cons q qs =>
        obtain ⟨hname, hnames⟩ := List.cons.inj hnames
        obtain ⟨hn, hns⟩ := List.forall₂_cons.mp hnodes
        rw [← (forall₂_replaced_properties_iff ps h.2 qs).mp ⟨hnames, hns⟩,
          ← (replaced_iff n h.1 q.2).mp hn]
        exact congrArg (· :: qs) (Prod.ext hname.symm rfl)
    · rintro rfl
      obtain ⟨hnames, hns⟩ := (forall₂_replaced_properties_iff ps h.2 _).mpr rfl
      exact ⟨congrArg (name :: ·) hnames, .cons ((replaced_iff n h.1 _).mpr rfl) hns⟩
termination_by structural ps => ps

/-- If each mention leads to one target, the replaced schema is the linked one, if there is one. -/
theorem rel_replaced_iff : ∀ n? : Option Node,
    (∀ name ∈ mentionsOfOption n?, ∀ target, leads name target ↔ target = f name) →
      ∀ m?, Option.Rel (Replaced leads) n? m? ↔ m? = linkOption f n?
  | none, _, m? => by
    rw [linkOption]
    constructor
    · intro hm
      cases hm
      rfl
    · rintro rfl
      exact .none
  | some n, h, m? => by
    rw [mentionsOfOption] at h
    rw [linkOption]
    constructor
    · intro hm
      cases hm with
      | some hn => rw [(replaced_iff n h _).mp hn]
    · rintro rfl
      exact .some ((replaced_iff n h _).mpr rfl)
termination_by structural n? => n?

end

end Node

namespace Resolver

/-! ### Replacing placeholders one after another -/

section Rewriting

variable (r : Resolver) (visit : Walk → TypeName → Except Stopped Walk)

mutual

/-- Replaces the placeholders of a schema in the order of the written schema.  The type that a
placeholder names is visited before the reference to it takes its place. -/
def rewrite : Walk → Node → Except Stopped (Walk × Node)
  | walk, .nominal name k =>
    match r.described name with
    | .error failure => .error ⟨walk, failure⟩
    | .ok t => do
      let walk ← visit walk name
      return (walk, .ref (r.identifier t) k)
  | walk, .array items k => do
    let (walk, items) ← rewrite walk items
    return (walk, .array items k)
  | walk, .nullable inner => do
    let (walk, inner) ← rewrite walk inner
    return (walk, .nullable inner)
  | walk, .oneOf variants k => do
    let (walk, variants) ← rewriteList walk variants
    return (walk, .oneOf variants k)
  | walk, .object typed allOf properties required additional k => do
    let (walk, allOf) ← rewriteList walk allOf
    let (walk, properties) ← rewriteProperties walk properties
    let (walk, additional) ← rewriteOption walk additional
    return (walk, .object typed allOf properties required additional k)
  | walk, .any k => return (walk, .any k)
  | walk, .null k => return (walk, .null k)
  | walk, .scalar primitive k => return (walk, .scalar primitive k)
  | walk, .enum values k => return (walk, .enum values k)
  | walk, .ref target k => return (walk, .ref target k)

/-- Replaces the placeholders of the schemas in a list. -/
def rewriteList : Walk → List Node → Except Stopped (Walk × List Node)
  | walk, [] => return (walk, [])
  | walk, node :: rest => do
    let (walk, node) ← rewrite walk node
    let (walk, rest) ← rewriteList walk rest
    return (walk, node :: rest)

/-- Replaces the placeholders of properties. -/
def rewriteProperties : Walk → List (String × Node) → Except Stopped (Walk × List (String × Node))
  | walk, [] => return (walk, [])
  | walk, (name, node) :: rest => do
    let (walk, node) ← rewrite walk node
    let (walk, rest) ← rewriteProperties walk rest
    return (walk, (name, node) :: rest)

/-- Replaces the placeholders of a schema, if there is one. -/
def rewriteOption : Walk → Option Node → Except Stopped (Walk × Option Node)
  | walk, none => return (walk, none)
  | walk, some node => do
    let (walk, node) ← rewrite walk node
    return (walk, some node)

end

end Rewriting

variable {r : Resolver} {visit : Walk → TypeName → Except Stopped Walk}

/-- The identifier of a name is that of the type it describes. -/
lemma identifierOf_of_described {name : TypeName} {t : TypeDescription}
    (h : r.described name = .ok t) : r.identifierOf name = r.identifier t := by
  rw [identifierOf, described_eq_ok_iff.mp h]
  rfl

mutual

/-- Placeholders that are replaced on the way are replaced as if all mentions were visited first. -/
theorem rewrite_eq (hvisit : ∀ walk name failure, r.described name = .error failure →
    visit walk name = .error ⟨walk, failure⟩) : ∀ (n : Node) (walk : Walk),
      r.rewrite visit walk n =
        (fun last => (last, n.link r.identifierOf)) <$> n.mentions.foldlM visit walk
  | .nominal name k, walk => by
    rw [rewrite, Node.mentions, Node.link, List.foldlM_cons]
    cases hname : r.described name with
    | error failure => rw [hvisit walk name failure hname]; rfl
    | ok t => simp [identifierOf_of_described hname]
  | .any _, walk | .null _, walk | .scalar _ _, walk | .enum _ _, walk | .ref _ _, walk => by
    rw [rewrite, Node.mentions, Node.link]
    rfl
  | .array items k, walk => by
    rw [rewrite, Node.mentions, Node.link, rewrite_eq hvisit items]
    simp only [bind_pure_comp, Functor.map_map]
  | .nullable inner, walk => by
    rw [rewrite, Node.mentions, Node.link, rewrite_eq hvisit inner]
    simp only [bind_pure_comp, Functor.map_map]
  | .oneOf variants k, walk => by
    rw [rewrite, Node.mentions, Node.link, rewriteList_eq hvisit variants]
    simp only [bind_pure_comp, Functor.map_map]
  | .object typed allOf properties required additional k, walk => by
    rw [rewrite, Node.mentions, Node.link, List.foldlM_append, List.foldlM_append,
      rewriteList_eq hvisit allOf]
    simp only [rewriteProperties_eq hvisit properties, rewriteOption_eq hvisit additional,
      bind_pure_comp, Functor.map_map, bind_map_left, bind_assoc, map_bind]
termination_by structural n => n

/-- The same holds of the schemas in a list. -/
theorem rewriteList_eq (hvisit : ∀ walk name failure, r.described name = .error failure →
    visit walk name = .error ⟨walk, failure⟩) : ∀ (ns : List Node) (walk : Walk),
      r.rewriteList visit walk ns =
        (fun last => (last, Node.linkList r.identifierOf ns)) <$>
          (Node.mentionsOfList ns).foldlM visit walk
  | [], walk => by
    rw [rewriteList, Node.mentionsOfList, Node.linkList]
    rfl
  | n :: ns, walk => by
    rw [rewriteList, Node.mentionsOfList, Node.linkList, List.foldlM_append, rewrite_eq hvisit n]
    simp only [rewriteList_eq hvisit ns, bind_pure_comp, Functor.map_map, bind_map_left, map_bind]
termination_by structural ns => ns

/-- The same holds of properties. -/
theorem rewriteProperties_eq (hvisit : ∀ walk name failure, r.described name = .error failure →
    visit walk name = .error ⟨walk, failure⟩) : ∀ (ps : List (String × Node)) (walk : Walk),
      r.rewriteProperties visit walk ps =
        (fun last => (last, Node.linkProperties r.identifierOf ps)) <$>
          (Node.mentionsOfProperties ps).foldlM visit walk
  | [], walk => by
    rw [rewriteProperties, Node.mentionsOfProperties, Node.linkProperties]
    rfl
  | (name, n) :: ps, walk => by
    rw [rewriteProperties, Node.mentionsOfProperties, Node.linkProperties, List.foldlM_append,
      rewrite_eq hvisit n]
    simp only [rewriteProperties_eq hvisit ps, bind_pure_comp, Functor.map_map, bind_map_left,
      map_bind]
termination_by structural ps => ps

/-- The same holds of a schema, if there is one. -/
theorem rewriteOption_eq (hvisit : ∀ walk name failure, r.described name = .error failure →
    visit walk name = .error ⟨walk, failure⟩) : ∀ (n? : Option Node) (walk : Walk),
      r.rewriteOption visit walk n? =
        (fun last => (last, Node.linkOption r.identifierOf n?)) <$>
          (Node.mentionsOfOption n?).foldlM visit walk
  | none, walk => by
    rw [rewriteOption, Node.mentionsOfOption, Node.linkOption]
    rfl
  | some n, walk => by
    rw [rewriteOption, Node.mentionsOfOption, Node.linkOption, rewrite_eq hvisit n]
    simp only [bind_pure_comp, Functor.map_map]
termination_by structural n? => n?

end

/-- A name without a description cannot be visited. -/
lemma visit_of_undescribed {depth : Nat} {walk : Walk} {name : TypeName} {failure : Failure}
    (h : r.described name = .error failure) :
    r.visit depth walk name = .error ⟨walk, failure⟩ := by
  unfold visit
  rw [h]

/-- Replacing the placeholders of a schema while the types that they name are visited leads to the
same end as visiting all of them and replacing the placeholders afterwards. -/
theorem rewrite_visit (depth : Nat) (walk : Walk) (n : Node) :
    r.rewrite (r.visit depth) walk n =
      (fun last => (last, n.link r.identifierOf)) <$>
        n.mentions.foldlM (r.visit depth) walk :=
  rewrite_eq (fun _ _ _ h => visit_of_undescribed h) n walk

/-! ### What is staged -/

section Staged

variable {depth : Nat} {walk next last : Walk} {name : TypeName} {t : TypeDescription}

/-- A name leads to the identifier of the type of the graph that has it. -/
def Leads (r : Resolver) (name : TypeName) (target : CanonicalId) : Prop :=
  ∃ t, r.graph.get? name = some t ∧ target = r.identifier t

/-- A definition of a type whose schema is the built one with its placeholders replaced. -/
structure Substitutes (r : Resolver) (t : TypeDescription) (d : Definition) : Prop where
  id : d.id = r.identifier t
  typeName : d.typeName = t.name
  /-- No other schema comes of the built one by replacing the placeholders. -/
  node : ∀ node, (r.config.build t).Replaced r.Leads node ↔ node = d.node

/-- The second walk stages more than the first one: schemas of types of the graph with their
placeholders replaced. -/
def StagesMore (r : Resolver) (walk next : Walk) : Prop :=
  ∃ added, next.staged = walk.staged ++ added ∧
    ∀ d ∈ added, ∃ t ∈ r.graph.types, r.Substitutes t d

/-- Walks that have the same definitions staged. -/
lemma StagesMore.of_eq (h : next.staged = walk.staged) : r.StagesMore walk next :=
  ⟨[], by rw [h, List.append_nil], nofun⟩

/-- More is staged step by step. -/
lemma StagesMore.trans (h : r.StagesMore walk next) (h' : r.StagesMore next last) :
    r.StagesMore walk last := by
  obtain ⟨added, hadded, hsubst⟩ := h
  obtain ⟨later, hlater, hsubst'⟩ := h'
  refine ⟨added ++ later, ?_, List.forall_mem_append.mpr ⟨hsubst, hsubst'⟩⟩
  rw [hlater, hadded, List.append_assoc]

/-- A visit that succeeds claims the type of the name, and builds it unless it is known. -/
lemma visit_eq_ok (h : r.visit depth walk name = .ok next) :
    ∃ t claimed, r.described name = .ok t ∧ r.claim walk t = .ok claimed ∧
      (next = claimed ∨
        ∃ smaller, depth = smaller + 1 ∧ r.expand (r.visit smaller) claimed t = .ok next) := by
  unfold visit at h
  split at h
  · cases h
  · next t hname =>
    obtain ⟨claimed, hclaim, h⟩ := bind_eq_ok_iff.mp h
    refine ⟨t, claimed, hname, hclaim, ?_⟩
    split at h
    · exact Or.inl (pure_eq_ok_iff.mp h).symm
    · cases depth with
      | zero => cases h
      | succ smaller => exact Or.inr ⟨smaller, rfl, h⟩

/-- The names that are visited with success have descriptions. -/
lemma described_of_foldlM {names : List TypeName}
    (h : names.foldlM (r.visit depth) walk = .ok next) :
    ∀ name ∈ names, ∃ t, r.described name = .ok t := by
  intro name hname
  obtain ⟨_, _, hvisit⟩ := exists_step_of_foldlM h hname
  obtain ⟨t, -, ht, -⟩ := visit_eq_ok hvisit
  exact ⟨t, ht⟩

/-- If all that a built schema mentions has a description, its definition is a substitution. -/
lemma substitutes_define (h : ∀ name ∈ (r.config.build t).mentions, ∃ u, r.described name = .ok u) :
    r.Substitutes t (r.define t) where
  id := rfl
  typeName := rfl
  node := by
    refine Node.replaced_iff (r.config.build t) fun name hname target => ?_
    obtain ⟨u, hu⟩ := h name hname
    have hget := described_eq_ok_iff.mp hu
    rw [identifierOf_of_described hu]
    constructor
    · rintro ⟨v, hv, rfl⟩
      rw [Option.some.inj (hget.symm.trans hv)]
    · exact fun htarget => ⟨u, hget, htarget⟩

/-- A type that is built stages what its mentions stage, and its definition in the end. -/
lemma expand_eq_ok (h : r.expand (r.visit depth) walk t = .ok next) :
    ∃ inner, (r.config.build t).mentions.foldlM (r.visit depth) (r.enter walk t) = .ok inner ∧
      next = r.leave inner t ∧ r.Substitutes t (r.define t) := by
  obtain ⟨inner, hinner, hnext⟩ := bind_eq_ok_iff.mp h
  exact ⟨inner, hinner, (pure_eq_ok_iff.mp hnext).symm,
    substitutes_define (described_of_foldlM hinner)⟩

/-- A visit stages substitutions. -/
lemma stagesMore_visit (h : r.visit depth walk name = .ok next) : r.StagesMore walk next := by
  induction depth generalizing walk name next with
  | zero =>
    obtain ⟨t, claimed, -, hclaim, rfl | ⟨smaller, hdepth, -⟩⟩ := visit_eq_ok h
    · exact .of_eq (staged_of_claim hclaim)
    · cases hdepth
  | succ depth ih =>
    obtain ⟨t, claimed, hname, hclaim, rfl | ⟨smaller, hdepth, hexpand⟩⟩ := visit_eq_ok h
    · exact .of_eq (staged_of_claim hclaim)
    · obtain rfl := Nat.succ.inj hdepth
      obtain ⟨inner, hinner, rfl, hsubst⟩ := expand_eq_ok hexpand
      have ht := (TypeGraph.mem_of_get? (described_eq_ok_iff.mp hname)).1
      have hfold : r.StagesMore (r.enter claimed t) inner :=
        foldlM_preserves (fun _ _ _ _ hreached hstep => hreached.trans (ih hstep)) (.of_eq rfl)
          hinner
      have hleave : r.StagesMore inner (r.leave inner t) :=
        ⟨[r.define t], rfl, fun d hd => ⟨t, ht, List.mem_singleton.mp hd ▸ hsubst⟩⟩
      exact ((StagesMore.of_eq (staged_of_claim hclaim)).trans hfold).trans hleave

/-- A type whose building succeeds is staged last, after definitions of other types of the graph.
Its schema is what replacing the placeholders one after another leaves of the built schema: the
built schema with each placeholder replaced by a reference with the same keywords to the identifier
of the type that it names, and with nothing else changed.  The same holds of all that is staged on
the way, whatever was being built, staged or registered before. -/
theorem expand_substitutes (r : Resolver) (depth : Nat) (walk last : Walk) (t : TypeDescription)
    (h : r.expand (r.visit depth) walk t = .ok last) :
    ∃ inner earlier d,
      r.rewrite (r.visit depth) (r.enter walk t) (r.config.build t) = .ok (inner, d.node) ∧
      last.staged = walk.staged ++ earlier ++ [d] ∧ r.Substitutes t d ∧
      ∀ e ∈ earlier, ∃ u ∈ r.graph.types, r.Substitutes u e := by
  obtain ⟨inner, hinner, rfl, hsubst⟩ := expand_eq_ok h
  have hfold : r.StagesMore (r.enter walk t) inner :=
    foldlM_preserves (fun _ _ _ _ hreached hstep => hreached.trans (stagesMore_visit hstep))
      (.of_eq rfl) hinner
  obtain ⟨earlier, hearlier, hall⟩ := hfold
  refine ⟨inner, earlier, r.define t, ?_, ?_, hsubst, hall⟩
  · rw [rewrite_visit, hinner]
    rfl
  · exact congrArg (· ++ [r.define t]) hearlier

/-- Once the dots are registered, the shapes are built.  The squares lead to the registered dots,
and the groups back to the shapes, which are still being built. -/
theorem expand_shape : ∃ walk t last,
    walk.registry.contains (shapes.base.identifier "Dot") = true ∧
    t.name = .topLevel "geometry" "Shape" ∧
    shapes.expand (shapes.visit 3) walk t = .ok last ∧
    last.staged.map (·.schemaName) = ["Square", "Group", "Shape"] ∧
    ∃ inner earlier d,
      shapes.rewrite (shapes.visit 3) (shapes.enter walk t) (shapes.config.build t) =
        .ok (inner, d.node) ∧
      last.staged = walk.staged ++ earlier ++ [d] ∧ shapes.Substitutes t d ∧
      ∀ e ∈ earlier, ∃ u ∈ shapes.graph.types, shapes.Substitutes u e :=
  ⟨{ registry := (resolve shapes {} (.topLevel "geometry" "Dot")).1 }, shapes.graph.types[0], _,
    rfl,
    rfl, rfl, rfl, expand_substitutes shapes 3 _ _ _ rfl⟩

end Staged

end Resolver

end SchemaCompiler
