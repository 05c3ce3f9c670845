import SchemaCompiler.Definition.Session
import SchemaCompiler.Proofs.Definition.Collision
import SchemaCompiler.Proofs.Definition.Growth
import SchemaCompiler.Proofs.Process

/-!
# Sessions among others

A session that runs alone resolves its root as `Resolver.resolve` does (`Resolver.run_session`).

Among others a session sees a registry that changes between its steps.  What sessions do to it is
`Registry.Evolves`: it stays sound, an owner or a definition that is there stays, and identifiers
are claimed for types that some root leads to.  Each step of a session keeps to this, and what a
walk has reached stays reached in a registry that evolved (`Walk.Visited`).  So whatever the other
sessions do, a session comes to the definition of its root in a sound registry with what this one
leads to there, or to a collision among the types that the root leads to
(`Resolver.keeps_session`).
-/

namespace SchemaCompiler

/-! ### Sessions that run alone -/

namespace Resolver

variable {r : Resolver} {walk : Walk} {t : TypeDescription} {name : TypeName}

@[simp] lemma registryOf_ok : registryOf (.ok walk) = walk.registry := rfl

/-- A claim that is not interfered with. -/
lemma run_claimShared : (r.claimShared walk t).run.run walk.registry =
    (registryOf (r.claim walk t), r.claim walk t) := rfl

/-- A look at a registry that has not changed. -/
lemma run_look (walk : Walk) (id : CanonicalId) :
    (look walk id).run walk.registry = (walk.registry, walk) := by
  unfold look
  split <;> rfl

/-- A walk over names runs alone as its single visits do. -/
lemma run_foldlM {visit : Walk → TypeName → Except Stopped Walk}
    {visitShared : Walk → TypeName → ExceptT Stopped (Process Registry) Walk}
    (h : ∀ walk name, (visitShared walk name).run.run walk.registry =
      (registryOf (visit walk name), visit walk name)) (names : List TypeName) (walk : Walk) :
    (names.foldlM visitShared walk).run.run walk.registry =
      (registryOf (names.foldlM visit walk), names.foldlM visit walk) := by
  induction names generalizing walk with
  | nil => rfl
  | cons name names ih =>
    rw [List.foldlM_cons, List.foldlM_cons, Process.run_bindExcept, h]
    cases visit walk name with
    | error stopped => rfl
    | ok walk => exact ih walk

/-- A type is built alone as it is without others, if visits run alone as they do without others. -/
lemma run_expand {visit : Walk → TypeName → Except Stopped Walk}
    {visitShared : Walk → TypeName → ExceptT Stopped (Process Registry) Walk}
    (h : ∀ walk name, (visitShared walk name).run.run walk.registry =
      (registryOf (visit walk name), visit walk name)) (walk : Walk) (t : TypeDescription) :
    (do
      let walk ← (r.config.build t).mentions.foldlM visitShared (r.enter walk t)
      return r.leave walk t : ExceptT Stopped (Process Registry) Walk).run.run walk.registry =
      (registryOf (r.expand visit walk t), r.expand visit walk t) := by
  have hmentions := run_foldlM h (r.config.build t).mentions (r.enter walk t)
  have hregistry : (r.enter walk t).registry = walk.registry := rfl
  rw [hregistry] at hmentions
  rw [Process.run_bindExcept, hmentions, expand]
  cases (r.config.build t).mentions.foldlM visit (r.enter walk t) with
  | error stopped => rfl
  | ok inner => rfl

/-- A visit runs alone as it does without others, if visits with a smaller bound do. -/
lemma run_visitShared_of_smaller {depth : ℕ} (hsmaller : ∀ smaller, depth = smaller + 1 →
      ∀ walk name, (r.visitShared smaller walk name).run.run walk.registry =
        (registryOf (r.visit smaller walk name), r.visit smaller walk name))
    (walk : Walk) (name : TypeName) :
    (r.visitShared depth walk name).run.run walk.registry =
      (registryOf (r.visit depth walk name), r.visit depth walk name) := by
  unfold visitShared visit
  cases r.described name with
  | error failure => rfl
  | ok t =>
    dsimp only
    rw [Process.run_bindExcept, run_claimShared]
    cases r.claim walk t with
    | error stopped => rfl
    | ok claimed =>
      have hlook := run_look claimed (r.identifier t)
      dsimp only
      rw [Process.run_liftExcept, Process.run_bind, registryOf_ok, hlook]
      dsimp only [bind, Except.bind]
      cases hknown : claimed.knows (r.identifier t) with
      | true => rfl
      | false =>
        cases depth with
        | zero => rfl
        | succ smaller =>
          simp only [Bool.false_eq_true, if_false]
          exact run_expand (hsmaller smaller rfl) claimed t

/-- A visit runs alone as it does without others. -/
lemma run_visitShared (depth : ℕ) (walk : Walk) (name : TypeName) :
    (r.visitShared depth walk name).run.run walk.registry =
      (registryOf (r.visit depth walk name), r.visit depth walk name) := by
  induction depth generalizing walk name with
  | zero => exact run_visitShared_of_smaller (fun _ h => absurd h (Nat.succ_ne_zero _).symm) _ _
  | succ depth ih =>
    refine run_visitShared_of_smaller (fun smaller h walk name => ?_) _ _
    obtain rfl : depth = smaller := Nat.succ.inj h
    exact ih walk name

/-- The walk of a described root runs alone as it does without others. -/
lemma run_walkFromShared {root : TypeName} (registry : Registry)
    (hname : r.described root = .ok t) :
    (r.walkFromShared root).run.run registry =
      (registryOf (r.walkFrom registry root), r.walkFrom registry root) := by
  unfold walkFromShared walkFrom
  rw [hname]
  dsimp only
  rw [Process.run_bindExcept]
  have hclaim : (r.claimShared { registry := {} } t).run.run registry =
      (registryOf (r.claim { registry } t), r.claim { registry } t) := rfl
  rw [hclaim]
  cases r.claim { registry } t with
  | error stopped => rfl
  | ok claimed => exact run_expand (run_visitShared r.graph.types.length) claimed t

/-- The definitions that are reached alone. -/
lemma run_reachableShared (registry : Registry) (steps : ℕ) (seen pending : List CanonicalId) :
    (reachableShared steps seen pending).run.run registry =
      (registry, reachable registry steps seen pending) := by
  induction steps generalizing seen pending with
  | zero => rfl
  | succ steps ih =>
    unfold reachableShared reachable
    cases pending.dropWhile seen.contains with
    | nil => rfl
    | cons id rest =>
      dsimp only
      rw [Process.run_liftExcept, Process.run_bind]
      have hlook : (lookUp id).run registry = (registry, registry.get? id) := rfl
      rw [hlook]
      dsimp only
      cases registry.get? id with
      | none => rfl
      | some d =>
        dsimp only
        rw [Process.run_bindExcept, ih]
        cases reachable registry steps (id :: seen) (d.references ++ rest) with
        | error failure => rfl
        | ok ds => rfl

/-- The root that is collected alone. -/
lemma run_collectShared (registry : Registry) (id : CanonicalId) :
    (collectShared id).run.run registry = (registry, collect registry id) := by
  unfold collectShared collect
  rw [Process.run_liftExcept, Process.run_bind]
  have hcurrent : current.run registry = (registry, registry) := rfl
  rw [hcurrent]
  dsimp only
  cases registry.get? id with
  | none => rfl
  | some d =>
    dsimp only
    rw [Process.run_bindExcept, run_reachableShared]
    cases reachable registry (registry.definitions.length + 1) [id] d.references with
    | error failure => rfl
    | ok ds => rfl

/-- A session that runs alone resolves its root. -/
theorem run_session (r : Resolver) (registry : Registry) (root : TypeName) :
    (r.session root).run registry = r.resolve registry root := by
  unfold session resolve
  cases hname : r.described root with
  | error failure =>
    rw [walkFromShared, walkFrom, hname]
    rfl
  | ok t =>
    rw [Process.run_bind, run_walkFromShared registry hname]
    cases r.walkFrom registry root with
    | error stopped => rfl
    | ok walk =>
      dsimp only
      rw [Process.run_bind]
      have hregister : (Process.atomic fun registry =>
          (registry.registerAll walk.staged, ())).run walk.registry =
            (walk.registry.registerAll walk.staged, ()) := rfl
      rw [registryOf_ok, hregister]
      dsimp only [Except.map, Except.bind]
      rw [Process.run_bind, run_collectShared]
      rfl

end Resolver

/-! ### Registries that sessions share -/

variable {c : Catalog} {names : TypeName → Prop} {graph : TypeGraph} {root : TypeName}

/-- What sessions do to the registry that they share: it stays sound, owners and definitions stay,
and identifiers are claimed for described types among some names. -/
structure Registry.Evolves (c : Catalog) (names : TypeName → Prop) (before after : Registry) :
    Prop where
  sound : before.Sound c → after.Sound c
  owner : ∀ {id name}, before.owner? id = some name → after.owner? id = some name
  get? : ∀ {id d}, before.get? id = some d → after.get? id = some d
  claims : c.ClaimsFor names before after

namespace Registry.Evolves

variable {first second third : Registry}

instance : Std.Refl (Registry.Evolves c names) := ⟨fun _ => ⟨id, id, id, .refl⟩⟩

instance : IsTrans Registry (Registry.Evolves c names) :=
  ⟨fun _ _ _ h h' => ⟨h'.sound ∘ h.sound, h'.owner ∘ h.owner, h'.get? ∘ h.get?,
    h.claims.trans h'.claims⟩⟩

/-- Sessions follow each other. -/
lemma trans (h : first.Evolves c names second) (h' : second.Evolves c names third) :
    first.Evolves c names third := IsTrans.trans _ _ _ h h'

/-- An identifier that has a definition goes on to have one. -/
lemma contains {id : CanonicalId} (h : first.Evolves c names second)
    (hid : first.contains id = true) : second.contains id = true := by
  rw [Registry.contains_eq_isSome] at hid ⊢
  obtain ⟨d, hd⟩ := Option.isSome_iff_exists.mp hid
  rw [h.get? hd]
  rfl

/-- A claim for types among the names. -/
lemma of_extends (hextends : first.Extends second) (hclaims : c.ClaimsFor names first second) :
    first.Evolves c names second where
  sound h := h.of_claims hextends hclaims
  owner := hextends.owner
  get? h := by rwa [Registry.get?, hextends.definitions]
  claims := hclaims

/-- Nothing that is claimed can be taken away. -/
lemma claimsFor_of_later (h : second.Evolves c names third)
    (hclaims : c.ClaimsFor names first third) : c.ClaimsFor names first second :=
  fun id name howner => hclaims id name (h.owner howner)

end Registry.Evolves

/-- A walk goes on with a registry that evolved from the one that it has seen. -/
lemma Walk.stays_of_evolves {walk : Walk} {now : Registry}
    (h : walk.registry.Evolves c names now) : walk.Stays { walk with registry := now } where
  precedes := by
    refine ⟨h.owner, fun {id} hknows => ?_⟩
    simp only [Walk.knows, Bool.or_eq_true] at hknows ⊢
    exact hknows.imp_right h.contains
  visiting := rfl
  staged := rfl

/-! ### What a walk comes to among others -/

/-- A root whose session takes part in a run: its graph is closed, and the types that it leads to
are among some names. -/
structure Catalog.TakesPart (c : Catalog) (names : TypeName → Prop) (graph : TypeGraph)
    (root : TypeName) : Prop where
  closed : graph.Closed c.source
  contains : graph.contains root = true
  leads : ∀ name, c.Leads root name → names name

/-- What a walk comes to: it succeeds with what it has reached, or it stopped at a collision among
the types that the root leads to.  What it has seen of the registry is still there. -/
def Catalog.ComesTo (c : Catalog) (names : TypeName → Prop) (root : TypeName)
    (reached : Walk → Prop) (now : Registry) : Except Stopped Walk → Prop
  | .ok walk => walk.registry.Evolves c names now ∧ reached walk
  | .error stopped =>
    stopped.walk.registry.Evolves c names now ∧ c.Collides (c.Leads root) stopped

/-- What a walk has visited stays visited in a registry that evolved. -/
lemma Walk.Visited.evolve {walk next : Walk} {visited : List TypeName} {now : Registry}
    (h : walk.Visited c visited next) (hnow : next.registry.Evolves c names now) :
    walk.Visited c visited { next with registry := now } where
  settled := (stays_of_evolves hnow).settled h.settled
  precedes := h.precedes.trans (stays_of_evolves hnow).precedes
  visiting := h.visiting
  holds name hname := (h.holds name hname).mono (stays_of_evolves hnow).precedes

/-- A walk that can go on: what it has built is settled, what it has seen of the registry is still
there, and its bound is not used up. -/
structure Walk.Underway (c : Catalog) (names : TypeName → Prop) (graph : TypeGraph) (depth : ℕ)
    (walk : Walk) (state : Registry) : Prop where
  settled : walk.Settled c
  seen : walk.registry.Evolves c names state
  fits : (c.resolver graph).Fits depth walk

/-- Walks with some bound visit all names that the root leads to. -/
def Catalog.VisitsAll (c : Catalog) (names : TypeName → Prop) (graph : TypeGraph) (root : TypeName)
    (depth : ℕ) : Prop :=
  ∀ (walk : Walk) (visited : List TypeName) (state : Registry),
    walk.Underway c names graph depth state → (∀ name ∈ visited, c.Leads root name) →
    (visited.foldlM ((c.resolver graph).visitShared depth) walk).run.Keeps
      (Registry.Evolves c names) (c.ComesTo names root (walk.Visited c visited)) state

namespace Resolver

variable {walk : Walk} {t : TypeDescription} {state : Registry}

/-- A claim is one in the registry as it has evolved. -/
lemma keeps_claimShared (h : c.TakesPart names graph root) (ht : c.source.Describes t)
    (hleads : c.Leads root t.name) (hseen : walk.registry.Evolves c names state) :
    ((c.resolver graph).claimShared walk t).run.Keeps (Registry.Evolves c names)
      (c.ComesTo names root fun claimed => walk.Stays claimed ∧
        claimed.registry.owner? ((c.resolver graph).identifier t) = some t.name) state := by
  refine Process.keeps_atomic fun now hnow => ?_
  dsimp only
  cases hclaim : (c.resolver graph).claim { walk with registry := now } t with
  | error stopped =>
    have hcollides := Catalog.collides_of_claim ht hleads hclaim
    obtain ⟨owner, -, -, rfl⟩ := claim_eq_error_iff.mp hclaim
    exact ⟨refl now, fun later hlater => ⟨hlater, hcollides⟩⟩
  | ok claimed =>
    have hevolves : now.Evolves c names claimed.registry :=
      .of_extends (extends_of_claim hclaim)
        (Catalog.claimsFor_of_claim ht (h.leads _ hleads) hclaim)
    have hstays : walk.Stays claimed :=
      (Walk.stays_of_evolves (hseen.trans hnow)).trans (Walk.stays_of_claim hclaim)
    exact ⟨hevolves, fun later hlater => ⟨hlater, hstays, owner?_of_claim hclaim⟩⟩

/-- A look shows the registry as it has evolved, or as it was seen before. -/
lemma keeps_look (hseen : walk.registry.Evolves c names state) (id : CanonicalId) :
    (look walk id).Keeps (Registry.Evolves c names)
      (fun now next => next.registry.Evolves c names now ∧ walk.Stays next) state := by
  unfold look
  split
  · exact fun now hnow => ⟨hseen.trans hnow, .refl walk⟩
  · refine Process.keeps_atomic fun now hnow => ?_
    exact ⟨refl now, fun later hlater => ⟨hlater, Walk.stays_of_evolves (hseen.trans hnow)⟩⟩

/-- A type is visited among others if walks with a smaller bound visit all names. -/
lemma keeps_visitShared (h : c.TakesPart names graph root) {depth : ℕ}
    (hsmaller : ∀ smaller, depth = smaller + 1 → c.VisitsAll names graph root smaller)
    (hwalk : walk.Underway c names graph depth state) {name : TypeName}
    (hleads : c.Leads root name) :
    ((c.resolver graph).visitShared depth walk name).run.Keeps (Registry.Evolves c names)
      (c.ComesTo names root (walk.Visited c [name])) state := by
  obtain ⟨t, hname⟩ :=
    Catalog.exists_described (c := c) (Catalog.contains_of_leads h.closed h.contains hleads)
  obtain ⟨hmem, ht, rfl⟩ := Catalog.described_eq_ok h.closed hname
  unfold visitShared
  rw [hname]
  dsimp only
  refine Process.Keeps.bindExcept (keeps_claimShared h ht hleads hwalk.seen) ?_
    fun _ _ hstopped => hstopped
  rintro now claimed - ⟨hseen, hclaimed, howner⟩
  rw [Process.run_liftExcept]
  refine Process.Keeps.bind (keeps_look hseen _) fun later next _ hstable => ?_
  obtain ⟨hlater, hlooked⟩ := hstable later (refl later)
  have hstays : walk.Stays next := hclaimed.trans hlooked
  have howner' : next.registry.owner? ((c.resolver graph).identifier t) = some t.name :=
    hlooked.precedes.owner howner
  cases hknown : next.knows ((c.resolver graph).identifier t) with
  | true =>
    simp only [if_true]
    have hholds : next.Holds c t.name := Walk.holds_of_knows ht rfl howner' hknown
    have hvisited : walk.Visited c [t.name] next := .of_holds hstays hwalk.settled hholds
    exact fun now hnow => ⟨hlater.trans hnow, hvisited⟩
  | false =>
    obtain ⟨smaller, rfl, hfits⟩ := (hwalk.fits.congr hstays.visiting).enter hmem hknown
    simp only [Bool.false_eq_true, if_false]
    have hsettled : next.Settled c := hstays.settled hwalk.settled
    have hentered : ((c.resolver graph).enter next t).Underway c names graph smaller later :=
      ⟨hsettled.mono Walk.precedes_enter rfl, hlater, hfits⟩
    have hmentions : ∀ name ∈ (c.config.build t).mentions, c.Leads root name :=
      fun name hname => hleads.tail ((Catalog.mentions_iff ht).mpr hname)
    refine Process.Keeps.bindExcept (hsmaller smaller rfl _ _ _ hentered hmentions) ?_
      fun _ _ hstopped => hstopped
    rintro last inner - ⟨hlast, hinner⟩ now hnow
    have hleft := hinner.leave h.closed hmem howner'
    exact ⟨hlast.trans hnow, hleft.of_stays hstays⟩

/-- Walks with some bound visit all names if single visits do. -/
lemma visitsAll_of_visits {depth : ℕ}
    (hvisit : ∀ (walk : Walk) (name : TypeName) (state : Registry),
      walk.Underway c names graph depth state → c.Leads root name →
      ((c.resolver graph).visitShared depth walk name).run.Keeps (Registry.Evolves c names)
        (c.ComesTo names root (walk.Visited c [name])) state) :
    c.VisitsAll names graph root depth := by
  intro walk visited state hwalk hvisited
  induction visited generalizing walk state with
  | nil =>
    exact fun now hnow => ⟨hwalk.seen.trans hnow, .nil hwalk.settled⟩
  | cons name visited ih =>
    rw [List.foldlM_cons]
    have hfirst := hvisit walk name state hwalk (hvisited name List.mem_cons_self)
    refine Process.Keeps.bindExcept hfirst ?_ fun _ _ hstopped => hstopped
    rintro now next - ⟨hnow, hnext⟩
    have hgoesOn : next.Underway c names graph depth now :=
      ⟨hnext.settled, hnow, hwalk.fits.congr hnext.visiting⟩
    have hrest := ih next now hgoesOn fun name hname => hvisited name (List.mem_cons_of_mem _ hname)
    refine hrest.mono fun later result hresult => ?_
    cases result with
    | error stopped => exact hresult
    | ok last =>
      obtain ⟨hlater, hlast⟩ := hresult
      exact ⟨hlater, hnext.cons hlast⟩

/-- Walks visit all names among others, whatever their bound. -/
theorem visitsAll (h : c.TakesPart names graph root) (depth : ℕ) :
    c.VisitsAll names graph root depth := by
  induction depth with
  | zero =>
    exact visitsAll_of_visits fun walk name state hwalk =>
      keeps_visitShared h (fun _ hdepth => absurd hdepth (Nat.succ_ne_zero _).symm) hwalk
  | succ depth ih =>
    refine visitsAll_of_visits fun walk name state hwalk =>
      keeps_visitShared h (fun smaller hdepth => ?_) hwalk
    obtain rfl : depth = smaller := Nat.succ.inj hdepth
    exact ih

/-- The walk of a root visits it among others. -/
theorem keeps_walkFromShared (h : c.TakesPart names graph root)
    (hstart : Registry.Evolves c names {} state) :
    ((c.resolver graph).walkFromShared root).run.Keeps (Registry.Evolves c names)
      (c.ComesTo names root (({ registry := {} } : Walk).Visited c [root])) state := by
  obtain ⟨t, hname⟩ := Catalog.exists_described (c := c) h.contains
  obtain ⟨hmem, ht, rfl⟩ := Catalog.described_eq_ok h.closed hname
  unfold walkFromShared
  rw [hname]
  dsimp only
  refine Process.Keeps.bindExcept (keeps_claimShared h ht .refl hstart) ?_
    fun _ _ hstopped => hstopped
  rintro now claimed - ⟨hseen, hstays, howner⟩
  have hentered : ((c.resolver graph).enter claimed t).Underway c names graph graph.types.length
      now := by
    refine ⟨Walk.settled_of_staged_eq_nil hstays.staged, hseen, .first hmem ?_⟩
    rw [enter, hstays.visiting]
  have hmentions : ∀ name ∈ (c.config.build t).mentions, c.Leads t.name name :=
    fun name hname => .single ((Catalog.mentions_iff ht).mpr hname)
  refine Process.Keeps.bindExcept (visitsAll h graph.types.length _ _ _ hentered hmentions) ?_
    fun _ _ hstopped => hstopped
  rintro last inner - ⟨hlast, hinner⟩ later hlater
  have hleft := hinner.leave h.closed hmem howner
  exact ⟨hlast.trans hlater, hleft.of_stays hstays⟩

/-- What a walk of a root has built is registered among others to a sound registry, in which the
root has its definition. -/
lemma keeps_register (hsound : state.Sound c) (hseen : walk.registry.Evolves c names state)
    (hwalk : ({ registry := {} } : Walk).Visited c [root] walk) :
    (Process.atomic fun registry => (registry.registerAll walk.staged, ())).Keeps
      (Registry.Evolves c names)
      (fun now _ => now.Sound c ∧ ∃ d, now.get? d.id = some d ∧ d.typeName = root) state := by
  refine Process.keeps_atomic fun now hnow => ?_
  have hvisited := hwalk.evolve (hseen.trans hnow)
  have hregistered : (now.registerAll walk.staged).Sound c := by
    have hnowSound : Registry.Sound c ({ walk with registry := now } : Walk).registry :=
      hnow.sound hsound
    exact hnowSound.registerAll hvisited.visiting hvisited.settled
  have hevolves : now.Evolves c names (now.registerAll walk.staged) :=
    { sound := fun _ => hregistered
      owner := fun howner => by rwa [Registry.owner?_registerAll]
      get? := fun hget => by rw [Registry.get?_registerAll, hget, Option.some_or]
      claims := fun id name howner => Or.inl (by rwa [Registry.owner?_registerAll] at howner) }
  have hholds := hvisited.holds root List.mem_cons_self
  obtain ⟨d, hd, hroot⟩ := hregistered.exists_of_holds hvisited.visiting hholds
  refine ⟨hevolves, fun later hlater => ⟨hlater.sound hregistered, d, ?_, hroot⟩⟩
  exact hlater.get? (Registry.get?_of_mem hregistered.nodup hd)

/-- What definitions of a sound registry lead to is the same among others. -/
lemma keeps_reachableShared {seen : Registry} (hsound : seen.Sound c)
    (hseen : seen.Evolves c names state) (steps : ℕ) (before pending : List CanonicalId)
    (hpending : ∀ id ∈ pending, seen.contains id = true) :
    (reachableShared steps before pending).run.Keeps (Registry.Evolves c names)
      (fun now result => seen.Evolves c names now ∧
        result = reachable seen steps before pending) state := by
  induction steps generalizing before pending state with
  | zero => exact fun now hnow => ⟨hseen.trans hnow, rfl⟩
  | succ steps ih =>
    unfold reachableShared reachable
    have hsub := (List.dropWhile_sublist (l := pending) before.contains).subset
    cases hdropped : pending.dropWhile before.contains with
    | nil => exact fun now hnow => ⟨hseen.trans hnow, rfl⟩
    | cons id rest =>
      rw [hdropped] at hsub
      have hid : seen.contains id = true := hpending id (hsub List.mem_cons_self)
      rw [Registry.contains_eq_isSome] at hid
      obtain ⟨d, hd⟩ := Option.isSome_iff_exists.mp hid
      dsimp only
      rw [Process.run_liftExcept, hd]
      -- The definition that is looked up is the one in the registry that was seen.
      have hlook : (lookUp id).Keeps (Registry.Evolves c names) (fun _ found => found = some d)
          state :=
        Process.keeps_atomic fun now hnow =>
          ⟨refl now, fun _ _ => (hseen.trans hnow).get? hd⟩
      refine Process.Keeps.bind hlook fun now found hnow hfound => ?_
      obtain rfl := hfound now (refl now)
      dsimp only
      have hreferences : ∀ id ∈ d.references ++ rest, seen.contains id = true := by
        intro other hother
        rcases List.mem_append.mp hother with hother | hother
        · exact hsound.closedUnderReferences d (Registry.mem_of_get? hd).1 other hother
        · exact hpending other (hsub (List.mem_cons_of_mem _ hother))
      refine Process.Keeps.bindExcept (ih (hseen.trans hnow) _ _ hreferences) ?_ ?_
      · rintro later ds - ⟨hlater, hds⟩
        rw [← hds]
        exact fun last hlast => ⟨hlater.trans hlast, rfl⟩
      · rintro later failure ⟨hlater, hfailure⟩
        rw [← hfailure]
        exact ⟨hlater, rfl⟩

/-- A root with a definition is collected among others from a registry as it stood meanwhile. -/
lemma keeps_collectShared (hsound : state.Sound c) {id : CanonicalId}
    (hid : state.contains id = true) :
    (collectShared id).run.Keeps (Registry.Evolves c names)
      (fun now result => ∃ seen, state.Evolves c names seen ∧ seen.Evolves c names now ∧
        result = collect seen id) state := by
  unfold collectShared
  rw [Process.run_liftExcept]
  have hcurrent : current.Keeps (Registry.Evolves c names)
      (fun now seen => state.Evolves c names seen ∧ seen.Evolves c names now) state :=
    Process.keeps_atomic fun now hnow => ⟨refl now, fun _ hlater => ⟨hnow, hlater⟩⟩
  refine Process.Keeps.bind hcurrent fun now seen _ hstable => ?_
  obtain ⟨hbefore, hnow⟩ := hstable now (refl now)
  obtain ⟨d, hd⟩ := Registry.exists_get? (hbefore.contains hid)
  rw [hd]
  dsimp only
  have hcollect : collect seen id =
      (reachable seen (seen.definitions.length + 1) [id] d.references).bind
        fun ds => .ok ⟨d, ds⟩ := by
    rw [collect, hd]
    rfl
  have hreferences : ∀ other ∈ d.references, seen.contains other = true :=
    (hbefore.sound hsound).closedUnderReferences d (Registry.mem_of_get? hd).1
  refine Process.Keeps.bindExcept
    (keeps_reachableShared (hbefore.sound hsound) hnow _ _ _ hreferences) ?_ ?_
  · rintro later ds - ⟨hlater, hds⟩
    rw [← hds] at hcollect
    exact fun last hlast => ⟨seen, hbefore, hlater.trans hlast, hcollect.symm⟩
  · rintro later failure ⟨hlater, hfailure⟩
    rw [← hfailure] at hcollect
    exact ⟨seen, hbefore, hlater, hcollect.symm⟩

end Resolver

/-- What the session of a root comes to: its definition in a sound registry, with what this one
leads to there, or a collision among the types that the root leads to.  What it has seen of the
registry is still there. -/
def Catalog.Answers (c : Catalog) (names : TypeName → Prop) (root : TypeName) (now : Registry) :
    Except Failure ResolvedRoot → Prop
  | .ok resolved => ∃ seen : Registry, seen.Sound c ∧ seen.Evolves c names now ∧
      resolved.definition ∈ seen.definitions ∧ resolved.definition.typeName = root ∧
      seen.Preorder [resolved.definition.id] resolved.definition.references resolved.definitions
  | .error failure => ∃ stopped : Stopped, stopped.failure = failure ∧
      stopped.walk.registry.Evolves c names now ∧ c.Collides (c.Leads root) stopped

/-- The session of a root comes to its definitions or to a collision, whatever the sessions of other
roots do in between. -/
theorem Resolver.keeps_session (h : c.TakesPart names graph root) {state : Registry}
    (hstart : Registry.Evolves c names {} state) :
    ((c.resolver graph).session root).Keeps (Registry.Evolves c names)
      (fun now answer => c.Answers names root now answer.2) state := by
  obtain ⟨t, hname⟩ := Catalog.exists_described (c := c) h.contains
  obtain ⟨-, ht, rfl⟩ := Catalog.described_eq_ok h.closed hname
  unfold session
  refine Process.Keeps.bind (keeps_walkFromShared h hstart) fun now ended hnow hended => ?_
  cases ended with
  | error stopped =>
    intro later hlater
    obtain ⟨hseen, hcollides⟩ := hended later hlater
    exact ⟨stopped, rfl, hseen, hcollides⟩
  | ok walk =>
    obtain ⟨hseen, hwalk⟩ := hended now (refl now)
    have hsound : now.Sound c := (hstart.trans hnow).sound .empty
    dsimp only
    refine Process.Keeps.bind (keeps_register hsound hseen hwalk) fun later _ _ hregistered => ?_
    obtain ⟨hlater, d, hd, hroot⟩ := hregistered later (refl later)
    have hid : (c.resolver graph).identifier t = d.id := by
      rw [← hlater.identifierOf_typeName (Registry.mem_of_get? hd).1, hroot,
        Catalog.identifierOf_of_describes ht]
      rfl
    rw [hname]
    dsimp only [Except.map]
    rw [hid]
    have hcontains : later.contains d.id = true := by
      rw [Registry.contains_eq_isSome, hd]
      rfl
    refine Process.Keeps.bind (keeps_collectShared hlater hcontains)
      fun last result _ hresult final hfinal => ?_
    obtain ⟨seen, hbefore, hseen, rfl⟩ := hresult final hfinal
    have hfound : seen.Sound c := hbefore.sound hlater
    obtain ⟨resolved, hresolved⟩ :=
      Registry.exists_collect hfound.closedUnderReferences (hbefore.contains hcontains)
    obtain ⟨hget, hpreorder⟩ := Registry.collect_eq_ok_iff.mp hresolved
    rw [hbefore.get? hd] at hget
    obtain rfl : d = resolved.definition := Option.some.inj hget
    rw [hresolved]
    exact ⟨seen, hfound, hseen, (Registry.mem_of_get? (hbefore.get? hd)).1, hroot, hpreorder⟩

end SchemaCompiler
