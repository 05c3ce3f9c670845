import Mathlib.Data.List.Induction
import Mathlib.Order.Bounds.Basic
import SchemaCompiler.Proofs.Constraint.Contributions
import SchemaCompiler.Proofs.Schema.Built

/-!
# The tightest bound is kept

Of all values that the constraints on a shape contribute to one keyword the tightest is kept,
whatever the order of the constraints is (`Mapping.bounds_ofConstraints`).

A bound changes only when a contributed value beats it, so it is the result of a fold
(`Mapping.read_ofConstraints`), and a fold that replaces a value when another one beats it leads to
a value that none beats, as long as beating is transitive (`tightest_foldl`).

An integer that is too large for a double can be compared with no double.  The numbers of
constraints are those that 64 bits hold, and constraints that are read have no others
(`Constraint.fits_of_ofEntry`).
-/

namespace SchemaCompiler

/-! ### Folds that keep the tightest value -/

section Tightest

variable {α : Type} {beats : α → α → Bool} {values : List α}

/-- The next value, if there is none or if it beats the present one, and else the present one. -/
def tighten (beats : α → α → Bool) (current : Option α) (value : α) : Option α :=
  match current with
  | none => some value
  | some present => if beats value present then some value else some present

/-- An optional value is missing if there are no values, and else one of them that none beats. -/
def Tightest (beats : α → α → Bool) (values : List α) : Option α → Prop
  | none => values = []
  | some kept => kept ∈ values ∧ ∀ value ∈ values, beats value kept = false

/-- The tightest value is missing exactly if there are no values. -/
lemma Tightest.eq_none_iff {current : Option α} (h : Tightest beats values current) :
    current = none ↔ ∀ value, value ∉ values := by
  rw [← List.eq_nil_iff_forall_not_mem]
  cases current with
  | none => exact iff_of_true rfl h
  | some kept =>
    refine iff_of_false nofun fun hempty => ?_
    exact List.not_mem_nil (hempty ▸ h.1)

/-- Tightening by one more value keeps the tightest. -/
lemma Tightest.snoc {current : Option α} {value : α} (h : Tightest beats values current)
    (hself : beats value value = false)
    (htrans : ∀ kept ∈ values, ∀ other ∈ values, beats other value = true →
      beats value kept = true → beats other kept = true) :
    Tightest beats (values ++ [value]) (tighten beats current value) := by
  cases current with
  | none =>
    obtain rfl : values = [] := h
    exact ⟨List.mem_singleton_self _, List.forall_mem_singleton.mpr hself⟩
  | some present =>
    obtain ⟨hpresent, hleast⟩ := h
    unfold tighten
    dsimp only
    split
    · next hbeats =>
      refine ⟨List.mem_append_right _ (List.mem_singleton_self _), ?_⟩
      refine List.forall_mem_append.mpr
        ⟨fun other hother => ?_, List.forall_mem_singleton.mpr hself⟩
      by_contra hworse
      rw [Bool.not_eq_false] at hworse
      have hcontra := htrans present hpresent other hother hworse hbeats
      rw [hleast other hother] at hcontra
      cases hcontra
    · next hbeats =>
      refine ⟨List.mem_append_left _ hpresent, ?_⟩
      exact List.forall_mem_append.mpr
        ⟨hleast, List.forall_mem_singleton.mpr (Bool.eq_false_of_not_eq_true hbeats)⟩

/-- Tightening by one value after another leads to a value that none of them beats. -/
theorem tightest_foldl (hself : ∀ value ∈ values, beats value value = false)
    (htrans : ∀ first ∈ values, ∀ second ∈ values, ∀ third ∈ values,
      beats first second = true → beats second third = true → beats first third = true) :
    Tightest beats values (values.foldl (tighten beats) none) := by
  induction values using List.reverseRecOn with
  | nil => rfl
  | append_singleton values value ih =>
    rw [List.foldl_append]
    have hsub : values ⊆ values ++ [value] := List.subset_append_left _ _
    have hvalue : value ∈ values ++ [value] :=
      List.mem_append_right _ (List.mem_singleton_self _)
    have hbefore := ih (fun v hv => hself v (hsub hv))
      (fun u hu v hv w hw => htrans u (hsub hu) v (hsub hv) w (hsub hw))
    exact hbefore.snoc (hself value hvalue) fun kept hkept other hother hother' hvalue' =>
      htrans other (hsub hother) value hvalue kept (hsub hkept) hother' hvalue'

end Tightest

/-! ### The fold behind a keyword -/

/-- Two sets of keywords have the same counts and numeric bounds. -/
structure Keywords.SameBounds (k k' : Keywords) : Prop where
  count : ∀ keyword, k.count keyword = k'.count keyword
  bound : ∀ keyword, k.bound keyword = k'.bound keyword

namespace Mapping

variable {m : Mapping} {kind : String} {x : Contribution} {shape : Shape}

/-- Whether a value for a count is tighter than the present one. -/
def countBeats (keyword : Keywords.Count) (value present : Nat) : Bool :=
  isTighter keyword.isLower (Ord.compare value present)

/-- Whether a value for a numeric bound is tighter than the present one. -/
def boundBeats (keyword : Keywords.Bound) (value present : Json.Number) : Bool :=
  isTighter keyword.isLower (value.compare present)

/-- Keywords that are replaced where a value beats the present one are tightened by the value. -/
lemma read_replaced {α : Type} (read : Keywords → Option α) (beats : α → α → Bool)
    {k new : Keywords} {value : α} (hnew : read new = some value) :
    read ((read k).elim new fun present => if beats value present then new else k) =
      tighten beats (read k) value := by
  cases hcurrent : read k with
  | none => exact hnew
  | some present =>
    rw [Option.elim_some]
    unfold tighten
    dsimp only
    split
    · exact hnew
    · exact hcurrent

/-- A tightened count is the tighter of two. -/
lemma count_tightenCount_self (k : Keywords) (keyword : Keywords.Count) (value : Nat) :
    (tightenCount k keyword value).count keyword =
      tighten (countBeats keyword) (k.count keyword) value := by
  have hset : (k.setCount value keyword).count keyword = some value := by simp
  rw [← read_replaced (·.count keyword) (countBeats keyword) hset]
  unfold tightenCount
  cases k.count keyword <;> rfl

/-- The other counts stay. -/
lemma count_tightenCount_of_ne {keyword other : Keywords.Count} (hne : keyword ≠ other)
    (k : Keywords) (value : Nat) : (tightenCount k keyword value).count other = k.count other := by
  rcases tightenCount_or k keyword value with hkept | hset
  · rw [hkept]
  · rw [hset, Keywords.count_setCount, if_neg hne]

/-- A tightened numeric bound is the tighter of two. -/
lemma bound_tightenBound_self (k : Keywords) (keyword : Keywords.Bound) (value : Json.Number) :
    (tightenBound k keyword value).bound keyword =
      tighten (boundBeats keyword) (k.bound keyword) value := by
  have hset : (k.setBound value keyword).bound keyword = some value := by simp
  rw [← read_replaced (·.bound keyword) (boundBeats keyword) hset]
  unfold tightenBound
  cases k.bound keyword <;> rfl

/-- The other numeric bounds stay. -/
lemma bound_tightenBound_of_ne {keyword other : Keywords.Bound} (hne : keyword ≠ other)
    (k : Keywords) (value : Json.Number) :
    (tightenBound k keyword value).bound other = k.bound other := by
  rcases tightenBound_or k keyword value with hkept | hset
  · rw [hkept]
  · rw [hset, Keywords.bound_setBound, if_neg hne]

/-- A tightened count leaves the numeric bounds alone. -/
lemma bound_tightenCount (k : Keywords) (keyword : Keywords.Count) (value : Nat)
    (other : Keywords.Bound) : (tightenCount k keyword value).bound other = k.bound other := by
  rcases tightenCount_or k keyword value with hkept | hset
  · rw [hkept]
  · rw [hset, Keywords.bound_setCount]

/-- A tightened numeric bound leaves the counts alone. -/
lemma count_tightenBound (k : Keywords) (keyword : Keywords.Bound) (value : Json.Number)
    (other : Keywords.Count) : (tightenBound k keyword value).count other = k.count other := by
  rcases tightenBound_or k keyword value with hkept | hset
  · rw [hkept]
  · rw [hset, Keywords.count_setBound]

/-- Contributions of other kinds leave counts and numeric bounds alone. -/
lemma sameBounds_contribute (hcount : ∀ keyword, x.count? keyword = none)
    (hbound : ∀ keyword, x.bound? keyword = none) :
    (contribute kind m x).keywords.SameBounds m.keywords := by
  have hrefl : m.keywords.SameBounds m.keywords := ⟨fun _ => rfl, fun _ => rfl⟩
  cases x with
  | count keyword n => simpa [Contribution.count?] using hcount keyword
  | bound keyword n => simpa [Contribution.bound?] using hbound keyword
  | pattern regexp =>
    unfold contribute
    dsimp only
    split
    · exact ⟨fun keyword => by cases keyword <;> rfl, fun keyword => by cases keyword <;> rfl⟩
    · split <;> exact hrefl
  | format name =>
    exact ⟨fun keyword => by cases keyword <;> rfl, fun keyword => by cases keyword <;> rfl⟩
  | constant value =>
    unfold contribute
    dsimp only
    split
    · exact hrefl
    · exact ⟨fun keyword => by cases keyword <;> rfl, fun keyword => by cases keyword <;> rfl⟩
  | step value =>
    unfold contribute
    dsimp only
    split
    · exact hrefl
    · exact ⟨fun keyword => by cases keyword <;> rfl, fun keyword => by cases keyword <;> rfl⟩
  | nullOnly => exact hrefl

/-- A contribution tightens the count that it gives a value to. -/
lemma count_contribute (keyword : Keywords.Count) (kind : String) (m : Mapping)
    (x : Contribution) : (contribute kind m x).keywords.count keyword =
      (x.count? keyword).elim (m.keywords.count keyword)
        (tighten (countBeats keyword) (m.keywords.count keyword)) := by
  cases x with
  | count other n =>
    simp only [contribute, keywords_note, Contribution.count?]
    by_cases hsame : other = keyword
    · rw [if_pos hsame, hsame, count_tightenCount_self, Option.elim_some]
    · rw [if_neg hsame, count_tightenCount_of_ne hsame, Option.elim_none]
  | bound other n =>
    simp only [contribute, keywords_note, count_tightenBound]
    rfl
  | _ => exact (sameBounds_contribute (fun _ => rfl) fun _ => rfl).count keyword

/-- A contribution tightens the numeric bound that it gives a value to. -/
lemma bound_contribute (keyword : Keywords.Bound) (kind : String) (m : Mapping)
    (x : Contribution) : (contribute kind m x).keywords.bound keyword =
      (x.bound? keyword).elim (m.keywords.bound keyword)
        (tighten (boundBeats keyword) (m.keywords.bound keyword)) := by
  cases x with
  | count other n =>
    simp only [contribute, keywords_note, bound_tightenCount]
    rfl
  | bound other n =>
    simp only [contribute, keywords_note, Contribution.bound?]
    by_cases hsame : other = keyword
    · rw [if_pos hsame, hsame, bound_tightenBound_self, Option.elim_some]
    · rw [if_neg hsame, bound_tightenBound_of_ne hsame, Option.elim_none]
  | _ => exact (sameBounds_contribute (fun _ => rfl) fun _ => rfl).bound keyword

section Read

variable {α : Type} (read : Keywords → Option α) {value? : Contribution → Option α}
  {beats : α → α → Bool}

/-- The values that some constraints contribute to a keyword, one after another. -/
def valuesOf (value? : Contribution → Option α) (shape : Shape) (constraints : List Constraint) :
    List α :=
  constraints.flatMap fun c => (c.effect shape).contributions.filterMap value?

section Tightened

variable (hread : ∀ kind m x, read (contribute kind m x).keywords =
  (value? x).elim (read m.keywords) (tighten beats (read m.keywords)))

include hread

/-- A keyword that each contribution tightens is tightened by one contribution after another. -/
lemma read_foldl_contribute (contributions : List Contribution) (kind : String) (m : Mapping) :
    read (contributions.foldl (contribute kind) m).keywords =
      (contributions.filterMap value?).foldl (tighten beats) (read m.keywords) := by
  induction contributions generalizing m with
  | nil => rfl
  | cons x contributions ih =>
    rw [List.foldl_cons, ih, hread]
    cases hvalue : value? x with
    | none => rw [List.filterMap_cons_none hvalue, Option.elim_none]
    | some value => rw [List.filterMap_cons_some hvalue, Option.elim_some, List.foldl_cons]

/-- It is tightened by what a constraint contributes. -/
lemma read_apply (shape : Shape) (m : Mapping) (c : Constraint) :
    read (apply shape m c).keywords =
      ((c.effect shape).contributions.filterMap value?).foldl (tighten beats)
        (read m.keywords) := by
  unfold apply
  split
  · next contributions heffect =>
    rw [heffect, Effect.contributions_contributes, read_foldl_contribute read hread]
  · next heffect =>
    rw [heffect]
    rfl
  · next name heffect =>
    rw [heffect]
    rfl

/-- It is tightened by what one constraint after another contributes. -/
lemma read_foldl_apply (shape : Shape) (constraints : List Constraint) (m : Mapping) :
    read (constraints.foldl (apply shape) m).keywords =
      (valuesOf value? shape constraints).foldl (tighten beats) (read m.keywords) := by
  induction constraints generalizing m with
  | nil => rfl
  | cons c constraints ih =>
    rw [List.foldl_cons, ih, read_apply read hread, valuesOf, valuesOf, List.flatMap_cons,
      List.foldl_append]

/-- A keyword that each contribution tightens is the result of tightening by all values that are
contributed to it. -/
theorem read_ofConstraints (hnone : read {} = none) (shape : Shape)
    (constraints : List Constraint) :
    read (ofConstraints shape constraints).keywords =
      (valuesOf value? shape constraints).foldl (tighten beats) none := by
  rw [ofConstraints, read_foldl_apply read hread, hnone]

end Tightened

end Read

/-- The values for a count are those that the table gives to it. -/
lemma mem_counts {constraints : List Constraint} {keyword : Keywords.Count} {n : Nat} :
    n ∈ valuesOf (·.count? keyword) shape constraints ↔
      n ∈ Constraint.counted shape constraints keyword := by
  simp only [valuesOf, List.mem_flatMap, List.mem_filterMap, Contribution.count?_eq_some_iff,
    exists_eq_right, Constraint.count_mem_contributions]
  rfl

/-- The values for a numeric bound are those that the table gives to it. -/
lemma mem_bounds {constraints : List Constraint} {keyword : Keywords.Bound} {n : Json.Number} :
    n ∈ valuesOf (·.bound? keyword) shape constraints ↔
      n ∈ Constraint.limited shape constraints keyword := by
  simp only [valuesOf, List.mem_flatMap, List.mem_filterMap, Contribution.bound?_eq_some_iff,
    exists_eq_right, Constraint.bound_mem_contributions]
  constructor
  · rintro ⟨c, hc, hnumeric, hlimits⟩
    exact ⟨hnumeric, c, hc, hlimits⟩
  · rintro ⟨hnumeric, c, hc, hlimits⟩
    exact ⟨c, hc, hnumeric, hlimits⟩

/-! ### The tightest bounds -/

/-- A count beats another one if it is greater, or smaller for the upper keywords. -/
lemma countBeats_iff {keyword : Keywords.Count} {value present : Nat} :
    countBeats keyword value present = true ↔
      if keyword.isLower then present < value else value < present := by
  unfold countBeats isTighter
  split <;> simp [Nat.compare_eq_gt, Nat.compare_eq_lt]

/-- The kept count is not beaten by any that is contributed. -/
lemma tightest_count (shape : Shape) (constraints : List Constraint) (keyword : Keywords.Count) :
    Tightest (countBeats keyword) (valuesOf (·.count? keyword) shape constraints)
      ((ofConstraints shape constraints).keywords.count keyword) := by
  have hfold : (ofConstraints shape constraints).keywords.count keyword =
      (valuesOf (·.count? keyword) shape constraints).foldl (tighten (countBeats keyword)) none :=
    read_ofConstraints (·.count keyword) (count_contribute keyword) (by cases keyword <;> rfl)
      shape constraints
  rw [hfold]
  refine tightest_foldl (fun value _ => ?_) fun first _ second _ third _ hfirst hsecond => ?_
  · rw [Bool.eq_false_iff, Ne, countBeats_iff]
    split <;> exact Nat.lt_irrefl value
  · rw [countBeats_iff] at *
    split at hfirst
    · next hlower =>
      rw [if_pos hlower] at hsecond ⊢
      exact hsecond.trans hfirst
    · next hupper =>
      rw [if_neg hupper] at hsecond ⊢
      exact hfirst.trans hsecond

/-- A number beats another one if it is greater, or smaller for the upper keywords. -/
lemma boundBeats_iff {keyword : Keywords.Bound} {value present : Json.Number} :
    boundBeats keyword value present = true ↔
      value.compare present = if keyword.isLower then .gt else .lt := by
  unfold boundBeats isTighter
  split <;> simp

/-- The kept number is not beaten by any that is contributed. -/
lemma tightest_bound (shape : Shape) {constraints : List Constraint}
    (hfits : ∀ c ∈ constraints, c.Fits) (keyword : Keywords.Bound) :
    Tightest (boundBeats keyword) (valuesOf (·.bound? keyword) shape constraints)
      ((ofConstraints shape constraints).keywords.bound keyword) := by
  have hvalues : ∀ n ∈ valuesOf (·.bound? keyword) shape constraints, n.Fits := by
    intro n hn
    obtain ⟨-, c, hc, hlimits⟩ := mem_bounds.mp hn
    exact hlimits.fits (hfits c hc)
  have hfold : (ofConstraints shape constraints).keywords.bound keyword =
      (valuesOf (·.bound? keyword) shape constraints).foldl (tighten (boundBeats keyword)) none :=
    read_ofConstraints (·.bound keyword) (bound_contribute keyword) (by cases keyword <;> rfl)
      shape constraints
  rw [hfold]
  refine tightest_foldl (fun value hvalue => ?_)
    fun first hfirst second hsecond third hthird hbeats hbeats' => ?_
  · rw [Bool.eq_false_iff, Ne, boundBeats_iff, Json.Number.compare_self (hvalues value hvalue)]
    split <;> nofun
  · have h₁ := hvalues first hfirst
    have h₂ := hvalues second hsecond
    have h₃ := hvalues third hthird
    rw [boundBeats_iff] at *
    split at hbeats
    · next hlower =>
      rw [if_pos hlower] at hbeats' ⊢
      exact Json.Number.compare_gt_trans h₁ h₂ h₃ hbeats hbeats'
    · next hupper =>
      rw [if_neg hupper] at hbeats' ⊢
      rw [Json.Number.compare_eq_lt_iff h₁ h₂] at hbeats
      rw [Json.Number.compare_eq_lt_iff h₂ h₃] at hbeats'
      rw [Json.Number.compare_eq_lt_iff h₁ h₃]
      exact Json.Number.compare_gt_trans h₃ h₂ h₁ hbeats' hbeats

/-- Beside a declared limit there is a kept one that it is not tighter than. -/
lemma exists_kept {constraints : List Constraint} (hfits : ∀ c ∈ constraints, c.Fits)
    {keyword : Keywords.Bound} {limit : Json.Number}
    (hlimit : limit ∈ Constraint.limited shape constraints keyword) :
    ∃ kept, (ofConstraints shape constraints).keywords.bound keyword = some kept ∧ kept.Fits ∧
      limit.compare kept ≠ if keyword.isLower then .gt else .lt := by
  have htightest := tightest_bound shape hfits keyword
  cases hkept : (ofConstraints shape constraints).keywords.bound keyword with
  | none => exact absurd (mem_bounds.mpr hlimit) (htightest.eq_none_iff.mp hkept limit)
  | some kept =>
    rw [hkept] at htightest
    obtain ⟨hmem, hbest⟩ := htightest
    obtain ⟨-, c, hc, hlimits⟩ := mem_bounds.mp hmem
    refine ⟨kept, rfl, hlimits.fits (hfits c hc), ?_⟩
    rw [Ne, ← boundBeats_iff, hbest limit (mem_bounds.mpr hlimit)]
    exact Bool.false_ne_true

/-- A kept count is the greatest lower or the least upper value. -/
lemma extreme_of_count_eq_some {constraints : List Constraint} {keyword : Keywords.Count} {n : Nat}
    (h : (ofConstraints shape constraints).keywords.count keyword = some n) :
    if keyword.isLower then IsGreatest (Constraint.counted shape constraints keyword) n
    else IsLeast (Constraint.counted shape constraints keyword) n := by
  have htightest := tightest_count shape constraints keyword
  rw [h] at htightest
  obtain ⟨hmem, hbest⟩ := htightest
  have hbound : ∀ m ∈ Constraint.counted shape constraints keyword,
      ¬if keyword.isLower then n < m else m < n := by
    intro m hm
    rw [← countBeats_iff, hbest m (mem_counts.mpr hm)]
    exact Bool.false_ne_true
  split
  · next hlower =>
    refine ⟨mem_counts.mp hmem, fun m hm => ?_⟩
    simpa [hlower] using hbound m hm
  · next hupper =>
    refine ⟨mem_counts.mp hmem, fun m hm => ?_⟩
    simpa [hupper] using hbound m hm

/-- The tightest bound is kept, for every shape and every list of constraints.  A keyword is missing
exactly if no value is contributed to it.  A count keyword is the greatest lower or the least upper
value that is contributed to it, and a numeric keyword is a contributed value than which no
contributed value is strictly tighter. -/
theorem bounds_ofConstraints (shape : Shape) {constraints : List Constraint}
    (hfits : ∀ c ∈ constraints, c.Fits) :
    (∀ keyword,
      ((ofConstraints shape constraints).keywords.count keyword = none ↔
        Constraint.counted shape constraints keyword = ∅) ∧
      ∀ n, (ofConstraints shape constraints).keywords.count keyword = some n ↔
        if keyword.isLower then IsGreatest (Constraint.counted shape constraints keyword) n
        else IsLeast (Constraint.counted shape constraints keyword) n) ∧
    ∀ keyword,
      ((ofConstraints shape constraints).keywords.bound keyword = none ↔
        Constraint.limited shape constraints keyword = ∅) ∧
      ∀ n, (ofConstraints shape constraints).keywords.bound keyword = some n →
        n ∈ Constraint.limited shape constraints keyword ∧
        ∀ m ∈ Constraint.limited shape constraints keyword,
          m.compare n ≠ if keyword.isLower then .gt else .lt := by
  refine ⟨fun keyword => ⟨?_, fun n => ⟨extreme_of_count_eq_some, fun hextreme => ?_⟩⟩,
    fun keyword => ⟨?_, fun n hn => ?_⟩⟩
  · rw [(tightest_count shape constraints keyword).eq_none_iff, Set.eq_empty_iff_forall_notMem]
    exact forall_congr' fun n => not_congr mem_counts
  · cases hkept : (ofConstraints shape constraints).keywords.count keyword with
    | none =>
      have hnone := (tightest_count shape constraints keyword).eq_none_iff.mp hkept
      have hmem : n ∈ Constraint.counted shape constraints keyword := by
        split at hextreme
        · exact hextreme.1
        · exact hextreme.1
      exact absurd (mem_counts.mpr hmem) (hnone n)
    | some kept =>
      have hkept' := extreme_of_count_eq_some hkept
      split at hextreme
      · next hlower =>
        rw [if_pos hlower] at hkept'
        rw [hkept'.unique hextreme]
      · next hupper =>
        rw [if_neg hupper] at hkept'
        rw [hkept'.unique hextreme]
  · rw [(tightest_bound shape hfits keyword).eq_none_iff, Set.eq_empty_iff_forall_notMem]
    exact forall_congr' fun n => not_congr mem_bounds
  · have htightest := tightest_bound shape hfits keyword
    rw [hn] at htightest
    obtain ⟨hmem, hbest⟩ := htightest
    refine ⟨mem_bounds.mp hmem, fun m hm => ?_⟩
    rw [Ne, ← boundBeats_iff, hbest m (mem_bounds.mpr hm)]
    exact Bool.false_ne_true

/-- The double `2 ^ 53`, which is also the nearest one of the next integer. -/
def limitOfDoubles : Binary64 :=
  ⟨false, 0x10000000000000, 1075, by decide, by decide, .inr (by decide)⟩

/-- Bounds on a number and on the length of a text. -/
def narrowing : List Constraint :=
  [ .positive, .min 7, .notEmpty, .decimalMin (.float limitOfDoubles) true,
    .min 9007199254740993, .size (some 3) none, .digits 20 0, .size (some 2) (some 9), .min 11 ]

/-- Of the lower bounds on a number the double is kept, which a later integer is not strictly above
for the comparison, and of those on a text the greatest. -/
theorem bounds_narrowing : (∀ c ∈ narrowing, c.Fits) ∧
    (ofConstraints .number narrowing).keywords.bound .minimum = some (.float limitOfDoubles) ∧
    .int 9007199254740993 ∈ Constraint.limited .number narrowing .minimum ∧
    (∀ m ∈ Constraint.limited .number narrowing .minimum,
      m.compare (.float limitOfDoubles) ≠ .gt) ∧
    (ofConstraints .string narrowing).keywords.count .minLength = some 3 ∧
    IsGreatest (Constraint.counted .string narrowing .minLength) 3 := by
  have hfits : ∀ c ∈ narrowing, c.Fits := by
    simp only [narrowing, List.forall_mem_cons, Constraint.Fits, Json.Number.Fits,
      Json.Number.minSigned, Json.Number.maxSigned]
    simp
  have hnumber : (ofConstraints .number narrowing).keywords.bound .minimum =
      some (.float limitOfDoubles) := by decide +kernel
  have htext : (ofConstraints .string narrowing).keywords.count .minLength = some 3 := by
    decide +kernel
  obtain ⟨-, hbest⟩ := ((bounds_ofConstraints .number hfits).2 .minimum).2 _ hnumber
  have hgreatest := (((bounds_ofConstraints .string hfits).1 .minLength).2 3).mp htext
  refine ⟨hfits, hnumber, ⟨rfl, .min 9007199254740993, ?_, .min⟩, hbest, htext, hgreatest⟩
  simp [narrowing]

end Mapping

end SchemaCompiler
