import SchemaCompiler.Proofs.Definition.Registry
import SchemaCompiler.Proofs.FirstMention

/-!
# Histories of a registry

What a registry holds after any sequence of claims and registrations (`Registry.after`), told from
the sequence alone.  The owner of an identifier is the type that claimed it first
(`owner?_after`), its definition is the first one that was registered under it (`get?_after`), and
the identifiers stand in the order in which they were first registered (`ids_after`).  So a registry
only grows, whatever is done to it later (`grows`).
-/

namespace SchemaCompiler.Registry

variable {registry : Registry} {id : CanonicalId} {d : Definition} {batch : List Definition}

/-! ### Definitions that stand for others -/

/-- An identifier without a definition finds none. -/
lemma contains_eq_isSome (registry : Registry) (id : CanonicalId) :
    registry.contains id = (registry.get? id).isSome := by
  rw [contains, get?, List.isSome_find?]

/-- A registered definition stands under its identifier unless there was one before. -/
lemma get?_register : (registry.register d).get? id =
    (registry.get? id).or (if d.id = id then some d else none) := by
  have hcontains := registry.contains_eq_isSome d.id
  unfold register
  split
  · next h =>
    rw [h] at hcontains
    split
    · next hid =>
      obtain ⟨existing, hget⟩ := Option.isSome_iff_exists.mp (hid ▸ hcontains.symm)
      rw [hget, Option.some_or]
    · rw [Option.or_none]
  · rw [get?, List.find?_append, ← get?, List.find?_singleton]
    simp

/-- A committed definition is registered, and the one that stands for it is given. -/
lemma commit_eq (registry : Registry) (d : Definition) :
    registry.commit d = (registry.register d, (registry.register d).committed d) := by
  rw [committed, get?_register, if_pos rfl]
  unfold commit register
  rw [contains_eq_isSome]
  cases registry.get? d.id <;> rfl

/-- The definition of an identifier after a batch is that before it, or else the first one of the
batch. -/
lemma get?_registerAll : (registry.registerAll batch).get? id =
    (registry.get? id).or (batch.find? fun d => d.id == id) := by
  induction batch generalizing registry with
  | nil => rw [List.find?_nil, Option.or_none]; rfl
  | cons d batch ih =>
    rw [registerAll_cons, ih, get?_register, Option.or_assoc, List.find?_cons]
    by_cases hid : d.id = id
    · simp [hid]
    · rw [if_neg hid, Option.none_or, beq_eq_false_iff_ne.mpr hid]

/-- The identifiers after a registration: a new one stands at the end. -/
lemma ids_register : (registry.register d).ids =
    if d.id ∈ registry.ids then registry.ids else registry.ids ++ [d.id] := by
  have hmem : registry.contains d.id = true ↔ d.id ∈ registry.ids := by
    rw [contains_iff, ids, List.mem_map]
  unfold register
  by_cases hknown : d.id ∈ registry.ids
  · rw [if_pos hknown, if_pos (hmem.mpr hknown)]
  · rw [if_neg hknown, if_neg (mt hmem.mp hknown), ids, List.map_append]
    rfl

/-- The identifiers after a batch are those before it and those of the batch, each once, in the
order in which they came first. -/
lemma ids_registerAll {before : List CanonicalId} (h : registry.ids = before.eraseDups) :
    (registry.registerAll batch).ids = (before ++ batch.map (·.id)).eraseDups := by
  induction batch generalizing registry before with
  | nil => rw [List.map_nil, List.append_nil, ← h]; rfl
  | cons d batch ih =>
    rw [registerAll_cons, List.map_cons, List.append_cons]
    refine ih ?_
    rw [ids_register, eraseDups_concat, h]
    exact if_congr List.mem_eraseDups rfl rfl

/-- A batch is registered, and the definitions that stand for it are those found afterwards. -/
lemma commitAll_eq (registry : Registry) (batch : List Definition) :
    registry.commitAll batch =
      (registry.registerAll batch, batch.map (registry.registerAll batch).committed) := by
  induction batch generalizing registry with
  | nil => rfl
  | cons d batch ih =>
    have hkept : (registry.register d).committed d =
        ((registry.register d).registerAll batch).committed d := by
      rw [committed, committed, get?_registerAll, get?_register, if_pos rfl]
      cases registry.get? d.id <;> rfl
    rw [commitAll, commit_eq]
    dsimp only
    rw [ih, registerAll_cons, List.map_cons, hkept]

/-! ### Histories -/

/-- What can be done to a registry. -/
inductive Operation where
  | claim (id : CanonicalId) (name : TypeName)
  | register (d : Definition)
  | registerAll (batch : List Definition)

namespace Operation

/-- The definitions that an operation registers. -/
def registered : Operation → List Definition
  | claim _ _ => []
  | register d => [d]
  | registerAll batch => batch

/-- The type that an operation claims an identifier for. -/
def claimant? (id : CanonicalId) : Operation → Option TypeName
  | claim other name => if other = id then some name else none
  | register _ | registerAll _ => none

end Operation

/-- The registry after an operation, and what came of it: the definitions that stand for those which
were registered, or why a claim failed. -/
def perform (registry : Registry) : Operation → Registry × Except Failure (List Definition)
  | .claim id name =>
    match registry.claim id name with
    | .ok after => (after, .ok [])
    | .error failure => (registry, .error failure)
  | .register d =>
    let (after, committed) := registry.commit d
    (after, .ok [committed])
  | .registerAll batch =>
    let (after, committed) := registry.commitAll batch
    (after, .ok committed)

/-- The registry after operations. -/
def after (registry : Registry) (history : List Operation) : Registry :=
  history.foldl (fun registry operation => (registry.perform operation).1) registry

/-- What came of each of some operations. -/
def outcomes (registry : Registry) : List Operation → List (Except Failure (List Definition))
  | [] => []
  | operation :: later =>
    (registry.perform operation).2 :: outcomes (registry.perform operation).1 later

variable {operation : Operation} {history later : List Operation}

/-- What a claim does is what came of it. -/
lemma perform_claim (registry : Registry) (id : CanonicalId) (name : TypeName) :
    registry.perform (.claim id name) =
      match registry.claim id name with
      | .ok after => (after, .ok [])
      | .error failure => (registry, .error failure) := rfl

/-- An operation registers its definitions. -/
lemma definitions_perform : (registry.perform operation).1.definitions =
    (registry.registerAll operation.registered).definitions := by
  cases operation with
  | claim id name =>
    rw [perform_claim]
    cases hclaim : registry.claim id name with
    | ok after => exact (claim_eq_ok hclaim).1
    | error failure => rfl
  | register d => rw [perform, commit_eq]; rfl
  | registerAll batch => rw [perform, commitAll_eq]; rfl

/-- An operation gives an identifier without owner to the type that it claims it for. -/
lemma owner?_perform : (registry.perform operation).1.owner? id =
    (registry.owner? id).or (operation.claimant? id) := by
  cases operation with
  | claim other name =>
    rw [perform_claim, Operation.claimant?]
    cases hclaim : registry.claim other name with
    | ok after =>
      dsimp only
      cases howner : registry.owner? id with
      | some owner => rw [(extends_of_claim hclaim).owner howner, Option.some_or]
      | none =>
        rw [(claim_eq_ok hclaim).2 id, howner, Option.none_or]
        exact if_congr eq_comm rfl rfl
    | error failure =>
      obtain ⟨owner, howner, -, -⟩ := claim_eq_error_iff.mp hclaim
      dsimp only
      split
      · next hid => rw [← hid, howner, Option.some_or]
      · rw [Option.or_none]
  | register d => rw [perform, commit_eq, Operation.claimant?, Option.or_none, owner?_register]
  | registerAll batch =>
    rw [perform, commitAll_eq, Operation.claimant?, Option.or_none, owner?_registerAll]

/-- The first operation of a history is done first. -/
lemma after_cons : registry.after (operation :: later) =
    (registry.perform operation).1.after later := rfl

/-- Operations follow each other. -/
lemma after_append : registry.after (history ++ later) = (registry.after history).after later :=
  List.foldl_append

/-- A history registers the definitions of its operations. -/
lemma definitions_after : (registry.after history).definitions =
    (registry.registerAll (history.flatMap Operation.registered)).definitions := by
  induction history generalizing registry with
  | nil => rfl
  | cons operation later ih =>
    have hbatch : registry.registerAll ((operation :: later).flatMap Operation.registered) =
        (registry.registerAll operation.registered).registerAll
          (later.flatMap Operation.registered) := List.foldl_append
    rw [after_cons, ih, hbatch]
    exact definitions_registerAll_congr definitions_perform

/-- The definition of an identifier after a history is that before it, or else the first one that is
registered under it. -/
lemma get?_after : (registry.after history).get? id =
    (registry.get? id).or
      ((history.flatMap Operation.registered).find? fun d => d.id == id) := by
  rw [get?, definitions_after, ← get?, get?_registerAll]

/-- The identifiers after a history from the beginning are those that are registered, in the order
in which they come first. -/
lemma ids_after : (after {} history).ids =
    ((history.flatMap Operation.registered).map (·.id)).eraseDups := by
  have hnone : ids {} = ([] : List CanonicalId).eraseDups := rfl
  rw [ids, definitions_after]
  exact ids_registerAll hnone

/-- The owner of an identifier after a history is that before it, or else the first type that claims
it. -/
lemma owner?_after : (registry.after history).owner? id =
    (registry.owner? id).or (history.findSome? (Operation.claimant? id)) := by
  induction history generalizing registry with
  | nil => rw [List.findSome?_nil, Option.or_none]; rfl
  | cons operation later ih =>
    rw [after_cons, ih, owner?_perform, Option.or_assoc, List.findSome?_cons]
    cases operation.claimant? id <;> rfl

/-! ### Growth -/

/-- A claim succeeds exactly if the identifier is free or belongs to the type that claims it. -/
lemma exists_claim_iff {name : TypeName} :
    (∃ answer, (registry.perform (.claim id name)).2 = .ok answer) ↔
      registry.owner? id = none ∨ registry.owner? id = some name := by
  rw [perform_claim]
  cases hclaim : registry.claim id name with
  | ok after =>
    refine iff_of_true ⟨[], rfl⟩ ?_
    cases howner : registry.owner? id with
    | none => exact Or.inl rfl
    | some owner =>
      have hkept := (extends_of_claim hclaim).owner howner
      rw [owner?_of_claim hclaim] at hkept
      exact Or.inr hkept.symm
  | error failure =>
    obtain ⟨owner, howner, hne, -⟩ := claim_eq_error_iff.mp hclaim
    refine iff_of_false nofun ?_
    rw [howner]
    rintro (hfree | hsame)
    · cases hfree
    · exact hne (Option.some.inj hsame)

/-- What fails changes nothing. -/
lemma perform_eq_of_error {failure : Failure}
    (h : (registry.perform operation).2 = .error failure) :
    (registry.perform operation).1 = registry := by
  cases operation with
  | claim id name =>
    rw [perform_claim] at h ⊢
    cases hclaim : registry.claim id name with
    | ok after =>
      rw [hclaim] at h
      cases h
    | error failure => rfl
  | register d => cases h
  | registerAll batch => cases h

/-- A batch is registered as its definitions are one by one, and the same definitions stand for
them. -/
lemma perform_registerAll (registry : Registry) (batch : List Definition) :
    ∃ committed, registry.perform (.registerAll batch) =
        (registry.after (batch.map .register), .ok committed) ∧
      registry.outcomes (batch.map .register) = committed.map fun d => .ok [d] := by
  induction batch generalizing registry with
  | nil => exact ⟨[], rfl, rfl⟩
  | cons d batch ih =>
    obtain ⟨committed, hperform, houtcomes⟩ := ih (registry.commit d).1
    have hrest : (registry.commit d).1.commitAll batch =
        ((registry.commit d).1.after (batch.map .register), committed) := by
      obtain ⟨hafter, hcommitted⟩ := Prod.mk.inj hperform
      exact Prod.ext hafter (Except.ok.inj hcommitted)
    refine ⟨(registry.commit d).2 :: committed, ?_, ?_⟩
    · have hstep : registry.perform (.registerAll (d :: batch)) =
          (((registry.commit d).1.commitAll batch).1,
            .ok ((registry.commit d).2 :: ((registry.commit d).1.commitAll batch).2)) := rfl
      rw [hstep, hrest]
      rfl
    · rw [List.map_cons, outcomes, List.map_cons, ← houtcomes]
      rfl

/-- A registry only grows.  No identifier is listed twice, and what is done later adds identifiers
at the end only.  An identifier keeps its definition and its owner, who is the type that claimed it
first.  A batch does what its definitions do one by one.  A claim succeeds exactly if the identifier
is free or belongs to the type that claims it, and it changes nothing where it fails. -/
theorem grows (history : List Operation) :
    let registry := after {} history
    registry.ids.Nodup ∧
    (∀ later, registry.ids <+: (registry.after later).ids) ∧
    (∀ later id d, registry.get? id = some d → (registry.after later).get? id = some d) ∧
    (∀ batch, ∃ committed, registry.perform (.registerAll batch) =
        (registry.after (batch.map .register), .ok committed) ∧
      registry.outcomes (batch.map .register) = committed.map fun d => .ok [d]) ∧
    (∀ id name, (∃ answer, (registry.perform (.claim id name)).2 = .ok answer) ↔
      registry.owner? id = none ∨ registry.owner? id = some name) ∧
    (∀ id, registry.owner? id = history.findSome? (Operation.claimant? id)) ∧
    (∀ later id owner, registry.owner? id = some owner →
      (registry.after later).owner? id = some owner) ∧
    ∀ id name failure, (registry.perform (.claim id name)).2 = .error failure →
      (registry.perform (.claim id name)).1 = registry := by
  intro registry
  refine ⟨?_, fun later => ?_, fun later id d hd => ?_, perform_registerAll registry,
    fun id name => exists_claim_iff, fun id => ?_, fun later id owner howner => ?_,
    fun id name failure hfails => perform_eq_of_error hfails⟩
  · rw [ids_after]
    exact nodup_eraseDups _
  · rw [← after_append, ids_after, ids_after, List.flatMap_append, List.map_append,
      List.eraseDups_append]
    exact List.prefix_append _ _
  · rw [get?_after, hd, Option.some_or]
  · exact owner?_after.trans Option.none_or
  · rw [owner?_after, howner, Option.some_or]

/-- A definition of a llama that says which one it is. -/
def llama (id description : String) : Definition where
  id := ⟨id⟩
  typeName := .topLevel "zoo" "Llama"
  schemaName := "Llama"
  node := .any { description := some description }
  references := []

/-- After a batch with a repeated identifier, the first definition stands, and another type cannot
claim the identifier. -/
theorem grows_llamas :
    let registry := after {} [.claim ⟨"a"⟩ (.topLevel "zoo" "Llama"),
      .registerAll [llama "a" "first", llama "b" "other", llama "a" "second"]]
    registry.ids = [⟨"a"⟩, ⟨"b"⟩] ∧
    (∀ later, registry.ids <+: (registry.after later).ids) ∧
    (∀ later, (registry.after later).get? ⟨"a"⟩ = some (llama "a" "first")) ∧
    (∀ later, (registry.after later).owner? ⟨"a"⟩ = some (.topLevel "zoo" "Llama")) ∧
    (registry.perform (.claim ⟨"a"⟩ (.topLevel "farm" "Llama"))).1 = registry := by
  intro registry
  obtain ⟨-, hids, hget, -, -, -, howner, hfails⟩ := grows [.claim ⟨"a"⟩ (.topLevel "zoo" "Llama"),
    .registerAll [llama "a" "first", llama "b" "other", llama "a" "second"]]
  exact ⟨by decide, hids, fun later => hget later _ _ rfl, fun later => howner later _ _ rfl,
    hfails _ _ _ rfl⟩

end SchemaCompiler.Registry
