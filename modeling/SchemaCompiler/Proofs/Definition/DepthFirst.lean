import Mathlib.Data.Set.Insert
import Mathlib.Logic.Relation
import SchemaCompiler.Proofs.Definition.Preorder
import SchemaCompiler.Proofs.FirstMention

/-!
# Depth-first order

`Registry.DepthFirst` is the recursive traversal of definitions: a definition that was not seen yet
comes first, then what its own references lead to, from left to right, and only then what stands
after it in the list that named it.  The search of a root does not recurse.  It keeps a list of
pending identifiers, in front of which it puts the references of each definition that it takes.

Both find the same definitions in the same order (`Preorder.depthFirst`).  What is pending in the
search is the rest of several lists at once, those of all definitions that the traversal is inside
of, so the comparison is about a first part of the pending list and what remains after it
(`Preorder.exists_depthFirst`).

What the search finds are the definitions that the root leads to by references, without the root
(`Preorder.mem_iff`).
-/

namespace SchemaCompiler.Registry

variable {registry : Registry} {seen : Set CanonicalId} {pending : List CanonicalId}
  {id : CanonicalId} {d : Definition} {ds es : List Definition}

/-- The identifiers of some definitions. -/
def idsOf (ds : List Definition) : Set CanonicalId := {id | ∃ d ∈ ds, d.id = id}

@[simp] lemma idsOf_nil : idsOf [] = ∅ := by
  ext id
  simp [idsOf]

@[simp] lemma idsOf_cons : idsOf (d :: ds) = insert d.id (idsOf ds) := by
  ext id
  simp [idsOf, eq_comm]

@[simp] lemma idsOf_append : idsOf (ds ++ es) = idsOf ds ∪ idsOf es := by
  ext id
  simp [idsOf, or_and_right, exists_or]

/-- The rules of the recursive traversal: the definitions that a list of identifiers leads to and
that were not seen before, in the order of the first visit. -/
inductive DepthFirst (registry : Registry) :
    Set CanonicalId → List CanonicalId → List Definition → Prop
  /-- No identifier is left. -/
  | done {seen : Set CanonicalId} : DepthFirst registry seen [] []
  /-- The next identifier was seen. -/
  | skip {seen : Set CanonicalId} {id : CanonicalId} {rest : List CanonicalId}
      {later : List Definition} (hseen : id ∈ seen) (hrest : DepthFirst registry seen rest later) :
      DepthFirst registry seen (id :: rest) later
  /-- The next definition is visited, and all that its references lead to before the rest. -/
  | visit {seen : Set CanonicalId} {id : CanonicalId} {rest : List CanonicalId} {d : Definition}
      {inner later : List Definition} (hnew : id ∉ seen) (hget : registry.get? id = some d)
      (hinner : DepthFirst registry (insert id seen) d.references inner)
      (hrest : DepthFirst registry (seen ∪ idsOf (d :: inner)) rest later) :
      DepthFirst registry seen (id :: rest) (d :: inner ++ later)

namespace DepthFirst

/-- The rules leave no choice. -/
theorem unique (h : registry.DepthFirst seen pending ds)
    (h' : registry.DepthFirst seen pending es) : ds = es := by
  induction h generalizing es with
  | done =>
    cases h'
    rfl
  | skip hseen _ ih =>
    cases h' with
    | skip _ hrest => exact ih hrest
    | visit hnew => exact absurd hseen hnew
  | visit hnew hget _ _ ihinner ihrest =>
    cases h' with
    | skip hseen => exact absurd hseen hnew
    | visit _ hget' hinner' hrest' =>
      rw [hget] at hget'
      cases hget'
      cases ihinner hinner'
      rw [ihrest hrest']

/-- A list is traversed one part after the other. -/
lemma exists_append {first rest : List CanonicalId}
    (h : registry.DepthFirst seen (first ++ rest) ds) :
    ∃ inner later, ds = inner ++ later ∧ registry.DepthFirst seen first inner ∧
      registry.DepthFirst (seen ∪ idsOf inner) rest later := by
  induction first generalizing seen ds with
  | nil => exact ⟨[], ds, rfl, .done, by simpa using h⟩
  | cons id first ih =>
    cases h with
    | skip hseen hrest =>
      obtain ⟨inner, later, hds, hfirst, hlater⟩ := ih hrest
      exact ⟨inner, later, hds, .skip hseen hfirst, hlater⟩
    | @visit _ _ _ d inside after hnew hget hinner hrest =>
      obtain ⟨inner, later, rfl, hfirst, hlater⟩ := ih hrest
      refine ⟨d :: inside ++ inner, later, ?_, .visit hnew hget hinner hfirst, ?_⟩
      · rw [List.append_assoc]
      · rwa [idsOf_append, ← Set.union_assoc]

/-- Identifiers that were seen can be left out of a list. -/
lemma filter {keep : CanonicalId → Bool} (h : registry.DepthFirst seen pending ds)
    (hseen : ∀ id ∈ pending, keep id = false → id ∈ seen) :
    registry.DepthFirst seen (pending.filter keep) ds := by
  induction h with
  | done => exact .done
  | @skip seen id rest later hid _ ih =>
    have hrest := ih fun other hother => hseen other (List.mem_cons_of_mem _ hother)
    rw [List.filter_cons]
    split
    · exact .skip hid hrest
    · exact hrest
  | @visit seen id rest d inner later hnew hget hinner _ _ ih =>
    have hkeep : keep id = true := by
      by_contra hdropped
      exact hnew (hseen id List.mem_cons_self (Bool.eq_false_of_not_eq_true hdropped))
    rw [List.filter_cons_of_pos hkeep]
    refine .visit hnew hget hinner (ih fun other hother hdropped => ?_)
    exact Or.inl (hseen other (List.mem_cons_of_mem _ hother) hdropped)

/-- Repetitions in a list do not matter, because what was visited once is seen. -/
lemma eraseDups {pending : List CanonicalId} {seen : Set CanonicalId} {ds : List Definition}
    (h : registry.DepthFirst seen pending ds) : registry.DepthFirst seen pending.eraseDups ds := by
  -- The recursion is on the length: the rest is shorter once its repetitions of the head are gone.
  match pending, h with
  | [], h => exact h
  | _ :: rest, @DepthFirst.skip _ _ id _ _ hseen hrest =>
    have hfilter : registry.DepthFirst seen (rest.filter fun other => !other == id) ds := by
      refine hrest.filter fun other _ hother => ?_
      obtain rfl : other = id := by simpa using hother
      exact hseen
    rw [List.eraseDups_cons]
    exact .skip hseen hfilter.eraseDups
  | _ :: rest, @DepthFirst.visit _ _ id _ d inner later hnew hget hinner hrest =>
    have hfilter : registry.DepthFirst (seen ∪ idsOf (d :: inner))
        (rest.filter fun other => !other == id) later := by
      refine hrest.filter fun other _ hother => ?_
      obtain rfl : other = id := by simpa using hother
      exact Or.inr ⟨d, List.mem_cons_self, (mem_of_get? hget).2⟩
    rw [List.eraseDups_cons]
    exact .visit hnew hget hinner hfilter.eraseDups
termination_by pending.length
decreasing_by
  all_goals exact Nat.lt_succ_of_le (List.length_filter_le _ _)

end DepthFirst

/-! ### The search with pending identifiers -/

namespace Preorder

variable {seen : List CanonicalId}

/-- A search deals with the first part of the pending identifiers as the traversal does, and then
with the rest. -/
theorem exists_depthFirst (h : registry.Preorder seen pending ds)
    {first rest : List CanonicalId} (hpending : pending = first ++ rest) :
    ∃ inner later, ds = inner ++ later ∧ registry.DepthFirst {id | id ∈ seen} first inner ∧
      registry.Preorder ((inner.map (·.id)).reverse ++ seen) rest later := by
  induction h generalizing first rest with
  | done =>
    obtain ⟨rfl, rfl⟩ := List.append_eq_nil_iff.mp hpending.symm
    exact ⟨[], [], rfl, .done, .done⟩
  | @skip seen pending id ds hseen hrest ih =>
    cases first with
    | nil =>
      obtain rfl : id :: pending = rest := hpending
      exact ⟨[], ds, rfl, .done, .skip hseen hrest⟩
    | cons head first =>
      obtain ⟨rfl, hremaining⟩ := List.cons.inj hpending
      obtain ⟨inner, later, hds, hfirst, hlater⟩ := ih hremaining
      exact ⟨inner, later, hds, .skip hseen hfirst, hlater⟩
  | @take seen pending id d ds hnew hget hrest ih =>
    cases first with
    | nil =>
      obtain rfl : id :: pending = rest := hpending
      exact ⟨[], d :: ds, rfl, .done, .take hnew hget hrest⟩
    | cons head first =>
      obtain ⟨rfl, rfl⟩ := List.cons.inj hpending
      obtain rfl : d.id = id := (mem_of_get? hget).2
      -- The references of the definition are pending in front of what remains of the first part.
      have hfront : d.references ++ (first ++ rest) = (d.references ++ first) ++ rest :=
        (List.append_assoc _ _ _).symm
      obtain ⟨found, later, rfl, hfound, hlater⟩ := ih hfront
      obtain ⟨inside, inner, rfl, hinside, hinner⟩ := hfound.exists_append
      have hseen : {id | id ∈ d.id :: seen} = insert d.id {id | id ∈ seen} := by
        ext id
        simp
      rw [hseen] at hinside hinner
      refine ⟨d :: inside ++ inner, later, by simp, .visit hnew hget hinside ?_, ?_⟩
      · rwa [idsOf_cons, Set.union_insert, ← Set.insert_union]
      · simpa using hlater

/-- A search finds what the traversal finds, in the same order. -/
theorem depthFirst (h : registry.Preorder seen pending ds) :
    registry.DepthFirst {id | id ∈ seen} pending ds := by
  obtain ⟨inner, later, rfl, hinner, hlater⟩ :=
    h.exists_depthFirst (List.append_nil pending).symm
  cases hlater
  rwa [List.append_nil]

end Preorder

/-! ### What a root leads to -/

/-- The definition of the first identifier refers to the second. -/
def RefersTo (registry : Registry) (first second : CanonicalId) : Prop :=
  ∃ d, registry.get? first = some d ∧ second ∈ d.references

/-- The second identifier is met from the first by following references. -/
def Reaches (registry : Registry) : CanonicalId → CanonicalId → Prop :=
  Relation.ReflTransGen registry.RefersTo

/-- The search of a registered root finds the registered definitions that the root leads to, other
than the root itself, whether or not they lead back to it. -/
theorem Preorder.mem_iff {root : Definition} (hroot : registry.get? id = some root)
    (h : registry.Preorder [id] root.references ds) :
    d ∈ ds ↔ registry.get? d.id = some d ∧ d.id ≠ id ∧ registry.Reaches id d.id := by
  have hfound : ∀ e ∈ ds, registry.Reaches id e.id := by
    refine h.forall_mem (fun next hnext => .single ⟨root, hroot, hnext⟩) ?_
    intro e he hreaches next hnext
    exact hreaches.tail ⟨e, h.get?_of_mem e he, hnext⟩
  have hcomplete : ∀ next, registry.Reaches id next → next = id ∨ ∃ e ∈ ds, e.id = next := by
    intro next hreaches
    induction hreaches with
    | refl => exact Or.inl rfl
    | tail _ hrefers ih =>
      obtain ⟨e, hget, hnext⟩ := hrefers
      obtain ⟨hpending, hreferences⟩ := h.closed
      rcases ih with rfl | ⟨e', he', rfl⟩
      · obtain rfl : root = e := Option.some.inj (hroot.symm.trans hget)
        simpa using hpending _ hnext
      · obtain rfl : e' = e := Option.some.inj ((h.get?_of_mem e' he').symm.trans hget)
        simpa using hreferences e' he' _ hnext
  constructor
  · intro hd
    have hnew := h.nodup.2 d hd
    exact ⟨h.get?_of_mem d hd, fun heq => hnew (heq ▸ List.mem_cons_self), hfound d hd⟩
  · rintro ⟨hget, hne, hreaches⟩
    rcases hcomplete d.id hreaches with heq | ⟨e, he, hid⟩
    · exact absurd heq hne
    · have hsame := h.get?_of_mem e he
      rw [hid, hget] at hsame
      rwa [Option.some.inj hsame]

end SchemaCompiler.Registry
