import Mathlib.Data.List.Induction
import Mathlib.Data.List.Nodup
import Mathlib.Data.List.Perm.Basic
import Mathlib.Logic.Relation
import Mathlib.Tactic.Lemma

/-!
# Orders of first mention

`List.eraseDups` keeps the first of equal elements, so it lists what a text mentions in the order of
first mention.  `BreadthFirst next start order` says that `order` is the breadth-first order of what
can be reached from `start`: the elements are those that can be reached, and they stand in the order
in which they are first mentioned by `start` and then by the elements of the order itself, one after
another.  There is at most one such order (`BreadthFirst.unique`).
-/

namespace SchemaCompiler

variable {α : Type} [BEq α] [LawfulBEq α]

/-! ### First occurrences -/

/-- First occurrences are distinct. -/
theorem nodup_eraseDups : ∀ xs : List α, xs.eraseDups.Nodup
  | [] => List.nodup_nil
  | x :: xs => by
    rw [List.eraseDups_cons, List.nodup_cons]
    exact ⟨by simp [List.mem_eraseDups], nodup_eraseDups _⟩
termination_by xs => xs.length
decreasing_by exact Nat.lt_succ_of_le (List.length_filter_le _ _)

/-- Distinct elements are first occurrences. -/
lemma eraseDups_of_nodup {xs : List α} (h : xs.Nodup) : xs.eraseDups = xs := by
  induction xs with
  | nil => rfl
  | cons x xs ih =>
    obtain ⟨hx, hxs⟩ := List.nodup_cons.mp h
    have hfilter : xs.filter (fun y => !y == x) = xs := by
      refine List.filter_eq_self.mpr fun y hy => ?_
      have hne : y ≠ x := fun heq => hx (heq ▸ hy)
      simpa using hne
    rw [List.eraseDups_cons, hfilter, ih hxs]

/-- Another element is a first occurrence or is left out. -/
lemma eraseDups_concat (xs : List α) (x : α) :
    (xs ++ [x]).eraseDups = if x ∈ xs then xs.eraseDups else xs.eraseDups ++ [x] := by
  rw [List.eraseDups_append]
  by_cases h : x ∈ xs
  · simp [List.removeAll, h]
  · simp [List.removeAll, h, List.eraseDups_cons]

/-- First occurrences stay first occurrences under a map that keeps elements apart. -/
lemma map_eraseDups {β : Type} [BEq β] [LawfulBEq β] {f : α → β} (hf : Function.Injective f)
    (xs : List α) : xs.eraseDups.map f = (xs.map f).eraseDups := by
  induction xs using List.reverseRecOn with
  | nil => rfl
  | append_singleton xs x ih =>
    rw [List.map_append, List.map_singleton, eraseDups_concat, eraseDups_concat]
    by_cases hx : x ∈ xs
    · rw [if_pos hx, if_pos (List.mem_map_of_mem hx), ih]
    · rw [if_neg hx, if_neg (mt (List.mem_map_of_injective hf).mp hx), List.map_append, ih]
      rfl

/-! ### Breadth-first orders -/

/-- The breadth-first order of what is reached from a start. -/
structure BreadthFirst (next : α → List α) (start : α) (order : List α) : Prop where
  /-- The start comes first, then what the elements of the order mention, each where it is
  mentioned first. -/
  firstMention : order = (start :: order.flatMap next).eraseDups
  reached : ∀ x ∈ order, Relation.ReflTransGen (fun a b => b ∈ next a) start x

namespace BreadthFirst

variable {next : α → List α} {start x : α} {order other : List α}

/-- Nothing stands twice in the order. -/
lemma nodup (h : BreadthFirst next start order) : order.Nodup := by
  rw [h.firstMention]
  exact nodup_eraseDups _

/-- What is mentioned by the start or by an element is an element. -/
lemma mem_of_mention (h : BreadthFirst next start order) (hx : x ∈ start :: order.flatMap next) :
    x ∈ order := by
  rw [h.firstMention]
  exact List.mem_eraseDups.mpr hx

/-- The elements are what can be reached from the start. -/
theorem mem_iff (h : BreadthFirst next start order) :
    x ∈ order ↔ Relation.ReflTransGen (fun a b => b ∈ next a) start x := by
  refine ⟨h.reached x, fun hreach => ?_⟩
  induction hreach with
  | refl => exact h.mem_of_mention List.mem_cons_self
  | tail _ hmention ih =>
    exact h.mem_of_mention (List.mem_cons_of_mem _ (List.mem_flatMap.mpr ⟨_, ih, hmention⟩))

/-- The first mentions up to some element are a first part of the order. -/
lemma prefix_of_take (h : BreadthFirst next start order) (k : Nat) :
    (start :: (order.take k).flatMap next).eraseDups <+: order := by
  have hsplit : start :: order.flatMap next =
      (start :: (order.take k).flatMap next) ++ (order.drop k).flatMap next := by
    rw [List.cons_append, ← List.flatMap_append, List.take_append_drop]
  have heq := h.firstMention
  rw [hsplit, List.eraseDups_append] at heq
  exact ⟨_, heq.symm⟩

/-- A first part of the order that is not the whole order mentions something else. -/
lemma lt_length_of_take (h : BreadthFirst next start order) {k : Nat} (hk : k < order.length) :
    k < ((start :: (order.take k).flatMap next).eraseDups).length := by
  by_contra hle
  -- Otherwise the first part contains the start and what it mentions, so everything is in it.
  have hprefix := h.prefix_of_take k
  have hsub : (start :: (order.take k).flatMap next).eraseDups ⊆ order.take k := by
    rw [List.prefix_iff_eq_take.mp hprefix]
    exact (List.take_prefix_take_left (by omega)).subset
  have hall : ∀ y ∈ order, y ∈ order.take k := by
    intro y hy
    have hreach := h.reached y hy
    clear hy
    induction hreach with
    | refl => exact hsub (List.mem_eraseDups.mpr List.mem_cons_self)
    | tail _ hmention ih =>
      exact hsub (List.mem_eraseDups.mpr
        (List.mem_cons_of_mem _ (List.mem_flatMap.mpr ⟨_, ih, hmention⟩)))
  have hlength : order.length ≤ (order.take k).length := h.nodup.length_le_of_subset hall
  rw [List.length_take] at hlength
  omega

/-- There is only one breadth-first order. -/
theorem unique (h : BreadthFirst next start order) (h' : BreadthFirst next start other) :
    order = other := by
  have hperm : order.Perm other :=
    (List.perm_ext_iff_of_nodup h.nodup h'.nodup).mpr fun x => h.mem_iff.trans h'.mem_iff.symm
  have hlength : order.length = other.length := hperm.length_eq
  have htake : ∀ k ≤ order.length, order.take k = other.take k := by
    intro k
    induction k with
    | zero => intro _; rfl
    | succ k ih =>
      intro hk
      have hsame := ih (by omega)
      -- Both orders go on with the next first mention.
      have hlt := h.lt_length_of_take (k := k) (by omega)
      have hfirst := List.prefix_iff_eq_take.mp (h.prefix_of_take k)
      have hsecond := List.prefix_iff_eq_take.mp (h'.prefix_of_take k)
      rw [← hsame] at hsecond
      have hboth : order.take (k + 1) =
          ((start :: (order.take k).flatMap next).eraseDups).take (k + 1) := by
        rw [hfirst, List.take_take, Nat.min_eq_left (by omega)]
      rw [hboth, hsecond, List.take_take, Nat.min_eq_left (by omega)]
  have hall := htake order.length (Nat.le_refl _)
  rwa [List.take_length, hlength, List.take_length] at hall

end BreadthFirst

end SchemaCompiler
