import Mathlib.Data.Finset.Card
import Mathlib.Data.Finset.Filter

/-!
# Nesting that ends

A computation that nests in itself ends if each nested part enters something new of a finite list
and leaves nothing of what was entered around it (`wellFounded_of_entering`).
-/

namespace SchemaCompiler

variable {α σ : Type} [DecidableEq α] {all : List α} {entered entered' : List α}

/-- The elements of a list that have not been entered. -/
def remaining (all entered : List α) : Finset α := {x ∈ all.toFinset | x ∉ entered}

/-- Less remains once a new element is entered. -/
lemma remaining_ssubset {x : α} (hsubset : entered ⊆ entered') (hx : x ∈ all)
    (hnew : x ∉ entered) (hentered : x ∈ entered') :
    remaining all entered' ⊂ remaining all entered := by
  refine (Finset.ssubset_iff_of_subset fun y hy => ?_).mpr ⟨x, ?_, ?_⟩
  · simp only [remaining, Finset.mem_filter] at hy ⊢
    exact ⟨hy.1, fun hmem => hy.2 (hsubset hmem)⟩
  · simp only [remaining, Finset.mem_filter, List.mem_toFinset]
    exact ⟨hx, hnew⟩
  · simp only [remaining, Finset.mem_filter, not_and, not_not]
    exact fun _ => hentered

/-- States that each enter something new of a list do not nest without end. -/
theorem wellFounded_of_entering {nests : σ → σ → Prop} (all : List α) (entered : σ → List α)
    (hnests : ∀ inner outer, nests inner outer →
      entered outer ⊆ entered inner ∧ ∃ x ∈ all, x ∉ entered outer ∧ x ∈ entered inner) :
    WellFounded nests := by
  have hmeasure : WellFounded fun inner outer : σ =>
      (remaining all (entered inner)).card < (remaining all (entered outer)).card :=
    (measure fun state => (remaining all (entered state)).card).wf
  refine Subrelation.wf (fun {inner outer} h => ?_) hmeasure
  obtain ⟨hsubset, x, hx, hnew, hentered⟩ := hnests inner outer h
  exact Finset.card_lt_card (remaining_ssubset hsubset hx hnew hentered)

end SchemaCompiler
