import Mathlib.Data.List.Perm.Basic
import Mathlib.Data.Prod.Lex
import Mathlib.Data.String.Basic
import Mathlib.Tactic.Lemma
import SchemaCompiler.Diagnostic

/-!
# Ordered findings

`Diagnostic.Precedes` is the order of reports.  A snapshot is strictly increasing in it
(`pairwise_snapshot`) and holds what was found (`mem_snapshot_iff`).  So a snapshot depends on the
set of findings alone (`snapshot_congr`), and not on the order in which they were found or on how
often.
-/

namespace SchemaCompiler

/-- Kinds of one rank are the same. -/
lemma DiagnosticKind.rank_inj {k l : DiagnosticKind} : k.rank = l.rank ↔ k = l := by
  cases k <;> cases l <;> decide

namespace Diagnostic

variable {a b c d : Diagnostic} {found found' : List Diagnostic}

/-! ### The order of reports -/

/-- One finding stands before another: its kind does, or its place within the kind, or its message
within the place. -/
def Precedes (a b : Diagnostic) : Prop :=
  a.kind.rank < b.kind.rank ∨
    a.kind = b.kind ∧ (a.location < b.location ∨ a.location = b.location ∧ a.message < b.message)

/-- What findings are ordered by. -/
def sortKey (d : Diagnostic) : ℕ ×ₗ String ×ₗ String :=
  toLex (d.kind.rank, toLex (d.location, d.message))

/-- Findings are ordered by kind, place and message. -/
lemma precedes_iff : a.Precedes b ↔ a.sortKey < b.sortKey := by
  simp [Precedes, sortKey, Prod.Lex.toLex_lt_toLex, DiagnosticKind.rank_inj]

/-- The order of reports is transitive. -/
lemma Precedes.trans (hab : a.Precedes b) (hbc : b.Precedes c) : a.Precedes c :=
  precedes_iff.mpr ((precedes_iff.mp hab).trans (precedes_iff.mp hbc))

/-- No two findings stand before each other. -/
lemma Precedes.asymm (hab : a.Precedes b) : ¬b.Precedes a :=
  fun hba => (precedes_iff.mp hab).asymm (precedes_iff.mp hba)

/-- Comparing findings tells which one stands before the other. -/
lemma compare_eq_lt_iff : compare a b = .lt ↔ a.Precedes b := by
  simp only [compare, Precedes, Ordering.then_eq_lt, compare_lt_iff_lt, compare_eq_iff_eq,
    DiagnosticKind.rank_inj]

/-- Only a finding itself compares as equal to it. -/
lemma compare_eq_eq_iff : compare a b = .eq ↔ a = b := by
  obtain ⟨kind, location, message⟩ := a
  obtain ⟨kind', location', message'⟩ := b
  simp [compare, Ordering.then_eq_eq, DiagnosticKind.rank_inj]

/-- A finding that compares as greater stands behind the other. -/
lemma compare_eq_gt_iff : compare a b = .gt ↔ b.Precedes a := by
  simp only [compare, Precedes, Ordering.then_eq_gt, compare_gt_iff_gt, compare_eq_iff_eq,
    DiagnosticKind.rank_inj]
  rw [@eq_comm _ a.kind, @eq_comm _ a.location]

/-! ### Snapshots -/

/-- What stands in a list after an insertion. -/
lemma mem_insert_iff : b ∈ insert d found ↔ b = d ∨ b ∈ found :=
  mem_insert fun _ _ h => compare_eq_eq_iff.mp h

/-- An insertion keeps a list strictly increasing. -/
lemma pairwise_insert (h : found.Pairwise Precedes) : (insert d found).Pairwise Precedes := by
  induction found with
  | nil => exact List.pairwise_singleton _ _
  | cons e rest ih =>
    obtain ⟨hhead, hrest⟩ := List.pairwise_cons.mp h
    unfold insert
    split
    · next hlt =>
      have hde : d.Precedes e := compare_eq_lt_iff.mp hlt
      refine List.pairwise_cons.mpr ⟨fun x hx => ?_, h⟩
      rcases List.mem_cons.mp hx with rfl | hx
      · exact hde
      · exact hde.trans (hhead x hx)
    · exact h
    · next hgt =>
      have hed : e.Precedes d := compare_eq_gt_iff.mp hgt
      refine List.pairwise_cons.mpr ⟨fun x hx => ?_, ih hrest⟩
      rcases mem_insert_iff.mp hx with rfl | hx
      · exact hed
      · exact hhead x hx

/-- A snapshot is strictly increasing. -/
theorem pairwise_snapshot (found : List Diagnostic) : (snapshot found).Pairwise Precedes := by
  induction found with
  | nil => exact .nil
  | cons d found ih => exact pairwise_insert ih

/-- A snapshot holds exactly what was found. -/
theorem mem_snapshot_iff : d ∈ snapshot found ↔ d ∈ found := by
  induction found with
  | nil => exact Iff.rfl
  | cons e found ih =>
    have hinsert : d ∈ snapshot (e :: found) ↔ d = e ∨ d ∈ snapshot found := mem_insert_iff
    rw [hinsert, ih, List.mem_cons]

/-- Strictly increasing lists of the same findings are the same. -/
lemma eq_of_mem_iff (h : found.Pairwise Precedes) (h' : found'.Pairwise Precedes)
    (hmem : ∀ d, d ∈ found ↔ d ∈ found') : found = found' := by
  have hnodup : ∀ {found : List Diagnostic}, found.Pairwise Precedes → found.Nodup := by
    intro found hfound
    refine hfound.imp fun hab heq => ?_
    exact hab.asymm (heq ▸ hab)
  have hperm : found.Perm found' :=
    (List.perm_ext_iff_of_nodup (hnodup h) (hnodup h')).mpr hmem
  exact hperm.eq_of_pairwise (fun _ _ _ _ hab hba => absurd hba hab.asymm) h h'

/-- Snapshots of the same set of findings are the same. -/
theorem snapshot_congr (hmem : ∀ d, d ∈ found ↔ d ∈ found') : snapshot found = snapshot found' :=
  eq_of_mem_iff (pairwise_snapshot found) (pairwise_snapshot found') fun d => by
    rw [mem_snapshot_iff, mem_snapshot_iff, hmem]

end Diagnostic

end SchemaCompiler
