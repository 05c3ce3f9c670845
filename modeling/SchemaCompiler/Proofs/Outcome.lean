import Mathlib.Data.List.Forall2
import Mathlib.Tactic.Lemma
import SchemaCompiler.Reported

/-!
# Successful outcomes

What the success of a sequence says about its parts, for computations that can fail and for those
that also report findings.  Later modules take computations apart with these statements instead of
unfolding the monad.
-/

namespace SchemaCompiler

/-! ### Computations that can fail -/

section Failing

variable {ε α β : Type}

/-- A sequence succeeds exactly when both of its steps do. -/
lemma bind_eq_ok_iff {first : Except ε α} {next : α → Except ε β} {b : β} :
    first >>= next = .ok b ↔ ∃ a, first = .ok a ∧ next a = .ok b := by
  cases first <;> simp [Bind.bind, Except.bind]

/-- A mapped computation succeeds exactly when the computation does. -/
lemma map_eq_ok_iff {f : α → β} {x : Except ε α} {b : β} :
    f <$> x = .ok b ↔ ∃ a, x = .ok a ∧ f a = b := by
  cases x <;> simp [Functor.map, Except.map]

/-- A computation with its failures put in other words succeeds exactly when it does itself. -/
lemma mapError_eq_ok_iff {ε' : Type} {f : ε → ε'} {x : Except ε α} {a : α} :
    x.mapError f = .ok a ↔ x = .ok a := by
  cases x with
  | error fault => exact iff_of_false nofun nofun
  | ok b =>
    constructor
    · exact fun h => congrArg Except.ok (Except.ok.inj h)
    · exact fun h => congrArg Except.ok (Except.ok.inj h)

/-- A returned value is the result. -/
lemma pure_eq_ok_iff {a b : α} : (pure a : Except ε α) = .ok b ↔ a = b := by
  simp [Pure.pure, Except.pure]

/-- A sequence that starts with a check succeeds exactly when the check passes and the rest
succeeds. -/
lemma unless_eq_ok_iff {p : Prop} [Decidable p] {fault : ε} {next : Except ε α} {a : α} :
    (if p then do throw fault; next else next) = .ok a ↔ ¬p ∧ next = .ok a := by
  split
  · next hp => exact iff_of_false nofun fun h => h.1 hp
  · next hp => exact (and_iff_right hp).symm

/-- What every step of a fold keeps is kept by the whole fold. -/
lemma foldlM_preserves {P : β → Prop} {step : β → α → Except ε β} {xs : List α}
    (keeps : ∀ b, ∀ x ∈ xs, ∀ b', P b → step b x = .ok b' → P b') {b b' : β}
    (hb : P b) (h : xs.foldlM step b = .ok b') : P b' := by
  induction xs generalizing b with
  | nil =>
    rw [List.foldlM_nil, pure_eq_ok_iff] at h
    exact h ▸ hb
  | cons x xs ih =>
    rw [List.foldlM_cons, bind_eq_ok_iff] at h
    obtain ⟨mid, hmid, hrest⟩ := h
    have hP : P mid := keeps b x List.mem_cons_self mid hb hmid
    exact ih (fun b y hy => keeps b y (List.mem_cons_of_mem _ hy)) hP hrest

/-- Every element of a successful fold has a step that succeeds. -/
lemma exists_step_of_foldlM {step : β → α → Except ε β} {xs : List α} {b b' : β}
    (h : xs.foldlM step b = .ok b') {x : α} (hx : x ∈ xs) : ∃ c c', step c x = .ok c' := by
  induction xs generalizing b with
  | nil => cases hx
  | cons y xs ih =>
    rw [List.foldlM_cons, bind_eq_ok_iff] at h
    obtain ⟨mid, hmid, hrest⟩ := h
    rcases List.mem_cons.mp hx with rfl | hx
    · exact ⟨b, mid, hmid⟩
    · exact ih hrest hx

/-- A fold that refuses what breaks a condition is the fold that refuses nothing, as long as the
condition holds in the end. -/
lemma foldlM_eq_ok_iff_foldl {P : β → Prop} {step : β → α → Except ε β} {grow : β → α → β}
    (hstep : ∀ b x b', P b → (step b x = .ok b' ↔ b' = grow b x ∧ P b'))
    (hgrow : ∀ b x, P (grow b x) → P b) {xs : List α} {b b' : β} (hb : P b) :
    xs.foldlM step b = .ok b' ↔ b' = xs.foldl grow b ∧ P b' := by
  have hbefore : ∀ (xs : List α) b, P (xs.foldl grow b) → P b := by
    intro xs
    induction xs with
    | nil => exact fun _ h => h
    | cons x xs ih => exact fun b h => hgrow b x (ih _ h)
  induction xs generalizing b with
  | nil =>
    rw [List.foldlM_nil, pure_eq_ok_iff, List.foldl_nil]
    constructor
    · rintro rfl
      exact ⟨rfl, hb⟩
    · rintro ⟨rfl, -⟩
      rfl
  | cons x xs ih =>
    rw [List.foldlM_cons, bind_eq_ok_iff, List.foldl_cons]
    constructor
    · rintro ⟨mid, hmid, hrest⟩
      obtain ⟨rfl, hP⟩ := (hstep b x mid hb).mp hmid
      exact (ih hP).mp hrest
    · rintro ⟨rfl, hP⟩
      have hmid : P (grow b x) := hbefore xs _ hP
      exact ⟨grow b x, (hstep b x _ hb).mpr ⟨rfl, hmid⟩, (ih hmid).mpr ⟨rfl, hP⟩⟩

/-- Every result of a successful traversal comes from an element. -/
lemma mem_of_mapM_eq_ok {f : α → Except ε β} {xs : List α} {ys : List β}
    (h : xs.mapM f = .ok ys) {y : β} (hy : y ∈ ys) : ∃ x ∈ xs, f x = .ok y := by
  induction xs generalizing ys with
  | nil =>
    rw [List.mapM_nil, pure_eq_ok_iff] at h
    simp [← h] at hy
  | cons x xs ih =>
    simp only [List.mapM_cons, bind_eq_ok_iff, pure_eq_ok_iff] at h
    obtain ⟨z, hz, zs, hzs, rfl⟩ := h
    rcases List.mem_cons.mp hy with rfl | hy
    · exact ⟨x, List.mem_cons_self, hz⟩
    · obtain ⟨x', hx', hfx'⟩ := ih hzs hy
      exact ⟨x', List.mem_cons_of_mem _ hx', hfx'⟩

/-- Every result of a traversal that gives results comes from an element. -/
lemma mem_of_mapM_eq_some {f : α → Option β} {xs : List α} {ys : List β}
    (h : xs.mapM f = some ys) {y : β} (hy : y ∈ ys) : ∃ x ∈ xs, f x = some y := by
  induction xs generalizing ys with
  | nil =>
    obtain rfl : [] = ys := by simpa using h
    cases hy
  | cons x xs ih =>
    simp only [List.mapM_cons, Option.bind_eq_bind, Option.bind_eq_some_iff] at h
    obtain ⟨z, hz, zs, hzs, hys⟩ := h
    obtain rfl : z :: zs = ys := by simpa using hys
    rcases List.mem_cons.mp hy with rfl | hy
    · exact ⟨x, List.mem_cons_self, hz⟩
    · obtain ⟨x', hx', hfx'⟩ := ih hzs hy
      exact ⟨x', List.mem_cons_of_mem _ hx', hfx'⟩

/-- The results of a successful traversal are those of the elements, one by one. -/
lemma forall₂_of_mapM_eq_ok {f : α → Except ε β} {xs : List α} {ys : List β}
    (h : xs.mapM f = .ok ys) : List.Forall₂ (fun x y => f x = .ok y) xs ys := by
  induction xs generalizing ys with
  | nil =>
    rw [List.mapM_nil, pure_eq_ok_iff] at h
    exact h ▸ .nil
  | cons x xs ih =>
    simp only [List.mapM_cons, bind_eq_ok_iff, pure_eq_ok_iff] at h
    obtain ⟨z, hz, zs, hzs, rfl⟩ := h
    exact .cons hz (ih hzs)

/-- A successful traversal has one result for each element. -/
lemma length_of_mapM_eq_ok {f : α → Except ε β} {xs : List α} {ys : List β}
    (h : xs.mapM f = .ok ys) : ys.length = xs.length :=
  (forall₂_of_mapM_eq_ok h).length_eq.symm

end Failing

/-! ### Computations that also report -/

namespace Reported

variable {α β : Type}

/-- A reporting sequence succeeds exactly when both of its steps do. -/
lemma result_andThen_eq_ok_iff {first : Reported α} {next : α → Reported β} {b : β} :
    (first.andThen next).result = .ok b ↔
      ∃ a, first.result = .ok a ∧ (next a).result = .ok b := by
  obtain ⟨findings, result⟩ := first
  cases result <;> simp

/-- A computation without findings has the result it is made of. -/
@[simp] lemma result_ofExcept {result : Except Failure α} :
    (ofExcept result).result = result := rfl

end Reported

end SchemaCompiler
