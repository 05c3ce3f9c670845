import Mathlib.Tactic.Lemma
import SchemaCompiler.Path

/-!
# Paths of files in a directory

A file name that is joined to the path of a directory becomes the last component of the path
(`Path.components_join`), however the directory is written: with or without a slash at its end, as
`.`, or empty.  More generally, a path that stays inside adds components of its own after those of
the directory, and none of them leads out (`Path.components_join_of_staysInside`).
-/

namespace SchemaCompiler

namespace Text

variable {p : Char → Bool}

/-- Text without separators is one piece. -/
lemma splitOn_eq_singleton {cs : List Char} (h : ∀ c ∈ cs, p c = false) : splitOn p cs = [cs] := by
  induction cs with
  | nil => rfl
  | cons c cs ih =>
    obtain ⟨hc, hrest⟩ := List.forall_mem_cons.mp h
    simp [splitOn, hc, ih hrest]

/-- The pieces around a separator are those before it and those after it. -/
lemma splitOn_append {c : Char} (hc : p c = true) (before after : List Char) :
    splitOn p (before ++ c :: after) = splitOn p before ++ splitOn p after := by
  induction before with
  | nil => simp [splitOn, hc]
  | cons d before ih =>
    rw [List.cons_append, splitOn, splitOn, ih]
    split
    · rfl
    · cases hpieces : splitOn p before with
      | nil => exact absurd hpieces (splitOn_ne_nil p before)
      | cons piece pieces => rfl

/-- There is no separator in a piece. -/
lemma eq_false_of_mem_splitOn {cs : List Char} :
    ∀ piece ∈ splitOn p cs, ∀ c ∈ piece, p c = false := by
  induction cs with
  | nil => simp [splitOn]
  | cons c cs ih =>
    rw [splitOn]
    split
    · exact List.forall_mem_cons.mpr ⟨by simp, ih⟩
    · next hc =>
      split
      · simpa using hc
      · next piece rest hpieces =>
        rw [hpieces] at ih
        obtain ⟨hpiece, hrest⟩ := List.forall_mem_cons.mp ih
        exact List.forall_mem_cons.mpr
          ⟨List.forall_mem_cons.mpr ⟨Bool.eq_false_iff.mpr hc, hpiece⟩, hrest⟩

/-- A piece of a text is in the text. -/
lemma subset_of_mem_splitOn {cs : List Char} : ∀ piece ∈ splitOn p cs, piece ⊆ cs := by
  induction cs with
  | nil => simp [splitOn]
  | cons c cs ih =>
    rw [splitOn]
    split
    · exact List.forall_mem_cons.mpr
        ⟨List.nil_subset _, fun piece hpiece => List.subset_cons_of_subset c (ih piece hpiece)⟩
    · split
      · exact List.forall_mem_singleton.mpr (List.cons_subset_cons c (List.nil_subset _))
      · next piece rest hpieces =>
        rw [hpieces] at ih
        obtain ⟨hpiece, hrest⟩ := List.forall_mem_cons.mp ih
        exact List.forall_mem_cons.mpr ⟨List.cons_subset_cons c hpiece,
          fun other hother => List.subset_cons_of_subset c (hrest other hother)⟩

end Text

namespace Path

/-- A text that stands for a file or directory of that name. -/
structure IsName (text : String) : Prop where
  noSlash : '/' ∉ text.toList
  ne_empty : text ≠ ""
  ne_current : text ≠ "."
  ne_parent : text ≠ ".."

variable {base name : String}

/-- The components of pieces one after another. -/
lemma ofPieces_append (first second : List (List Char)) :
    ofPieces (first ++ second) = ofPieces first ++ ofPieces second := by
  induction first using ofPieces.induct <;> simp_all [ofPieces]

/-- A name is one component. -/
lemma ofPieces_name (h : IsName name) : ofPieces [name.toList] = [.name name] := by
  have hne : ∀ text : String, name ≠ text → name.toList ≠ text.toList :=
    fun _ hname heq => hname (String.toList_injective heq)
  unfold ofPieces
  split
  · simp_all
  · next heq => exact absurd (List.cons.inj heq).1 (hne "" h.ne_empty)
  · next heq => exact absurd (List.cons.inj heq).1 (hne "." h.ne_current)
  · next heq => exact absurd (List.cons.inj heq).1 (hne ".." h.ne_parent)
  · next piece rest _ _ _ heq =>
    obtain ⟨rfl, rfl⟩ := List.cons.inj heq
    simp [ofPieces]

/-- The components that the pieces of a path make, where the first piece can be a point. -/
def assemble (absolute : Bool) (pieces : List (List Char)) : List Component :=
  if absolute then .root :: ofPieces pieces
  else
    match pieces with
    | ['.'] :: rest => .current :: ofPieces rest
    | pieces => ofPieces pieces

/-- The components of a path are made by its pieces. -/
lemma components_eq_assemble (path : String) :
    components path = assemble (isAbsolute path) (Text.splitOn (· == '/') path.toList) := rfl

/-- A first piece that is no point is a piece like the others. -/
lemma assemble_cons {piece : List Char} (h : piece ≠ ['.']) (rest : List (List Char)) :
    assemble false (piece :: rest) = ofPieces (piece :: rest) := by
  unfold assemble
  simp only [Bool.false_eq_true, if_false]
  split
  · next heq => exact absurd (List.cons.inj heq).1 h
  · rfl

/-- More pieces make more components. -/
lemma assemble_append {absolute : Bool} {pieces : List (List Char)} (h : pieces ≠ [])
    (more : List (List Char)) :
    assemble absolute (pieces ++ more) = assemble absolute pieces ++ ofPieces more := by
  obtain ⟨piece, rest, rfl⟩ := List.exists_cons_of_ne_nil h
  cases absolute with
  | true =>
    simp only [assemble, if_true]
    rw [ofPieces_append, List.cons_append]
  | false =>
    by_cases hpoint : piece = ['.']
    · subst hpoint
      simp [assemble, ofPieces_append]
    · rw [List.cons_append, assemble_cons hpoint, assemble_cons hpoint, ← List.cons_append,
        ofPieces_append]

/-- A text without a slash is a single piece. -/
lemma splitOn_of_not_mem {cs : List Char} (h : '/' ∉ cs) : Text.splitOn (· == '/') cs = [cs] := by
  refine Text.splitOn_eq_singleton fun c hc => ?_
  have hne : c ≠ '/' := by
    rintro rfl
    exact h hc
  simpa using hne

/-- What stands after a slash of a path makes its own components. -/
lemma components_of_toList {path : String} {before after : List Char}
    (hpath : path.toList = before ++ '/' :: after) :
    components path = assemble (isAbsolute path) (Text.splitOn (· == '/') before) ++
      ofPieces (Text.splitOn (· == '/') after) := by
  rw [components_eq_assemble, hpath, Text.splitOn_append (by decide),
    assemble_append (Text.splitOn_ne_nil _ _)]

/-- A path is absolute if a first part of it is. -/
lemma isAbsolute_append (hbase : base ≠ "") (more : String) :
    isAbsolute (base ++ more) = isAbsolute base := by
  unfold isAbsolute
  rw [String.toList_append]
  cases hlist : base.toList with
  | nil => exact absurd (String.toList_injective hlist) hbase
  | cons c cs => rfl

/-- A name is not absolute. -/
lemma isAbsolute_name (h : IsName name) : isAbsolute name = false := by
  have hslash := h.noSlash
  unfold isAbsolute
  cases hlist : name.toList with
  | nil => rfl
  | cons c cs =>
    rw [hlist, List.mem_cons, not_or] at hslash
    simpa using Ne.symm hslash.1

/-- A name is its only component. -/
lemma components_name (h : IsName name) : components name = [.name name] := by
  have hpoint : name.toList ≠ ['.'] := fun heq => h.ne_current (String.toList_injective heq)
  rw [components_eq_assemble, isAbsolute_name h, splitOn_of_not_mem h.noSlash, assemble_cons hpoint,
    ofPieces_name h]

/-- A path that is joined to another adds the components of its pieces, in which a point says
nothing. -/
theorem components_join_of_relative {path : String} (hbase : base ≠ "")
    (hpath : isAbsolute path = false) :
    components (join base path) =
      components base ++ ofPieces (Text.splitOn (· == '/') path.toList) := by
  have hempty : base.isEmpty = false := by simpa using hbase
  unfold join
  rw [hpath, hempty]
  simp only [Bool.or_self, Bool.false_eq_true, if_false]
  split
  · next hlast =>
    obtain ⟨before, hbefore⟩ := List.getLast?_eq_some_iff.mp (beq_iff_eq.mp hlast)
    have hjoined : (base ++ path).toList = before ++ '/' :: path.toList := by
      rw [String.toList_append, hbefore, List.append_assoc, List.singleton_append]
    rw [components_of_toList hjoined, components_of_toList hbefore, isAbsolute_append hbase]
    simp [Text.splitOn, ofPieces]
  · have hjoined : (base ++ "/" ++ path).toList = base.toList ++ '/' :: path.toList := by
      simp [String.toList_append]
    rw [components_of_toList hjoined, String.append_assoc, isAbsolute_append hbase,
      ← components_eq_assemble]

/-- A path that is joined to the empty one stands for itself. -/
lemma join_empty (path : String) : join "" path = path := by simp [join]

/-- A name after the pieces of a path is the last component. -/
theorem components_join (h : IsName name) :
    components (join base name) = components base ++ [.name name] := by
  by_cases hempty : base = ""
  · rw [hempty, join_empty, components_name h]
    rfl
  · rw [components_join_of_relative hempty (isAbsolute_name h), splitOn_of_not_mem h.noSlash,
      ofPieces_name h]

/-! ### Paths that stay inside -/

/-- A point, or the name of something in a directory: a component that does not lead out. -/
def Component.Descends : Component → Prop
  | .current => True
  | .name text => IsName text
  | .root | .parent => False

/-- The pieces of a path make the names of something, and `..`. -/
lemma isName_of_mem_ofPieces {pieces : List (List Char)} {text : String}
    (hpieces : ∀ piece ∈ pieces, '/' ∉ piece) (h : .name text ∈ ofPieces pieces) :
    IsName text := by
  induction pieces using ofPieces.induct with
  | case1 => cases h
  | case2 rest ih | case3 rest ih =>
    rw [ofPieces] at h
    exact ih (List.forall_mem_cons.mp hpieces).2 h
  | case4 rest ih =>
    rw [ofPieces, List.mem_cons] at h
    exact ih (List.forall_mem_cons.mp hpieces).2 (h.resolve_left (by simp))
  | case5 piece rest hempty hcurrent hparent ih =>
    obtain ⟨hslash, hrest⟩ := List.forall_mem_cons.mp hpieces
    rw [ofPieces, List.mem_cons] at h
    · rcases h with heq | hmem
      · obtain rfl := Component.name.inj heq
        refine ⟨by simpa using hslash, ?_, ?_, ?_⟩ <;> rintro heq
        · exact hempty (by simpa using congrArg String.toList heq)
        · exact hcurrent (by simpa using congrArg String.toList heq)
        · exact hparent (by simpa using congrArg String.toList heq)
      · exact ih hrest hmem
    all_goals assumption

/-- The components of a path that is not absolute are those of its pieces, after a point if the
first piece is one. -/
lemma components_of_relative {path : String} (h : isAbsolute path = false) :
    components path = ofPieces (Text.splitOn (· == '/') path.toList) ∨
      components path = .current :: ofPieces (Text.splitOn (· == '/') path.toList) := by
  rw [components_eq_assemble, h]
  unfold assemble
  simp only [Bool.false_eq_true, if_false]
  split
  · next heq =>
    rw [heq, ofPieces]
    exact Or.inr rfl
  · exact Or.inl rfl

/-- A path that stays inside is not absolute. -/
lemma isAbsolute_of_staysInside {path : String} (h : staysInside path = true) :
    isAbsolute path = false := by
  cases habsolute : isAbsolute path with
  | false => rfl
  | true => simp [staysInside, components_eq_assemble, habsolute, assemble] at h

/-- The components of a path that stays inside do not lead out. -/
lemma descends_of_staysInside {path : String} (h : staysInside path = true) :
    ∀ c ∈ components path, c.Descends := by
  have hinside := List.all_eq_true.mp h
  have hpieces : ∀ piece ∈ Text.splitOn (· == '/') path.toList, '/' ∉ piece := by
    intro piece hpiece hslash
    exact absurd (Text.eq_false_of_mem_splitOn piece hpiece '/' hslash) (by decide)
  intro c hc
  cases c with
  | root | parent => exact absurd (hinside _ hc) (by simp)
  | current => trivial
  | name text =>
    refine isName_of_mem_ofPieces hpieces ?_
    rcases components_of_relative (isAbsolute_of_staysInside h) with heq | heq
    · rwa [heq] at hc
    · rw [heq, List.mem_cons] at hc
      exact hc.resolve_left (by simp)

/-- A path that stays inside, joined to another one, adds its own components, which do not lead out;
only a point at its beginning can get lost. -/
theorem components_join_of_staysInside {path : String} (h : staysInside path = true)
    (base : String) : ∃ inner, components (join base path) = components base ++ inner ∧
      (components path = inner ∨ components path = .current :: inner) ∧
      ∀ c ∈ inner, c.Descends := by
  have hrelative := isAbsolute_of_staysInside h
  have hdescends := descends_of_staysInside h
  by_cases hbase : base = ""
  · refine ⟨components path, ?_, Or.inl rfl, hdescends⟩
    rw [hbase, join_empty]
    rfl
  · have hpieces := components_of_relative hrelative
    refine ⟨_, components_join_of_relative hbase hrelative, hpieces, fun c hc => hdescends c ?_⟩
    rcases hpieces with heq | heq
    · exact heq ▸ hc
    · exact heq ▸ List.mem_cons_of_mem _ hc

end Path

end SchemaCompiler
