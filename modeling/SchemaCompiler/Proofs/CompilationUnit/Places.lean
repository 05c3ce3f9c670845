import Mathlib.Data.List.Induction
import Mathlib.Data.List.Lex
import SchemaCompiler.Proofs.CompilationUnit

/-!
# Places of declarations

Every declaration in some files stands at a place: the number of its file, its number among the
types of the file, and its numbers among the types that are nested in each other.  Ordered as words
are, places follow the files one after another and in each file show a type before those nested in
it.  `declaredAt?` says what is declared at a place, under which name and where it comes from.

A unit lists what is declared at all places, in their order (`enumerates_typesOf`), and it exists
exactly if no two places have types of one full name (`ofFiles_places`).  Otherwise the first
place is reported at which a full name comes again (`RepeatsFirst`).
-/

namespace SchemaCompiler

/-! ### Values at places -/

/-- Where something stands in a forest: the numbers of the steps that lead to it. -/
abbrev Place := List Nat

section Enumeration

variable {α β : Type}

/-- What stands at places in the trees of a list: the first number chooses the tree. -/
def among (at? : β → Place → Option α) (trees : List β) : Place → Option α
  | [] => none
  | k :: rest => trees[k]?.bind fun tree => at? tree rest

section Among

variable {at? : β → Place → Option α} {trees : List β} {tree : β} {place rest : Place} {k : Nat}

/-- Where something stands in the trees of a list, the first number is that of a tree. -/
lemma exists_cons_of_among (h : (among at? trees place).isSome) :
    ∃ k rest, place = k :: rest ∧ k < trees.length := by
  cases place with
  | nil => cases h
  | cons k rest =>
    refine ⟨k, rest, rfl, ?_⟩
    by_contra hlength
    rw [among, List.getElem?_eq_none (Nat.le_of_not_lt hlength)] at h
    cases h

/-- The last number chooses the last tree. -/
lemma among_concat_length :
    among at? (trees ++ [tree]) (trees.length :: rest) = at? tree rest := by
  rw [among, List.getElem?_concat_length, Option.bind_some]

/-- The other numbers choose among the other trees. -/
lemma among_concat_of_ne (h : k ≠ trees.length) :
    among at? (trees ++ [tree]) (k :: rest) = among at? trees (k :: rest) := by
  rw [among, among]
  rcases Nat.lt_or_gt_of_ne h with hlt | hgt
  · rw [List.getElem?_append_left hlt]
  · rw [List.getElem?_eq_none (by simp; omega), List.getElem?_eq_none (by omega)]

end Among

/-- A list shows what stands at each place, in the order of the places. -/
structure Enumerates (at? : Place → Option α) (places : List Place) (xs : List α) : Prop where
  sorted : places.Pairwise (· < ·)
  mem_iff : ∀ place, place ∈ places ↔ (at? place).isSome
  shows : places.map at? = xs.map some

namespace Enumerates

variable {at? : Place → Option α} {places before after : List Place} {xs ys : List α} {x : α}
  {place : Place}

/-- What is listed is what stands at some place. -/
lemma mem_values_iff (h : Enumerates at? places xs) : x ∈ xs ↔ ∃ place, at? place = some x := by
  have hmem : x ∈ xs ↔ some x ∈ places.map at? := by
    rw [h.shows]
    simp
  rw [hmem, List.mem_map]
  constructor
  · rintro ⟨place, -, hplace⟩
    exact ⟨place, hplace⟩
  · rintro ⟨place, hplace⟩
    exact ⟨place, (h.mem_iff place).mpr (hplace ▸ rfl), hplace⟩

/-- What is listed is distinct under a name exactly if no two places have the same name. -/
lemma nodup_map_iff {γ : Type} {f : α → γ} (h : Enumerates at? places xs) :
    (xs.map f).Nodup ↔
      ∀ p q x y, at? p = some x → at? q = some y → f x = f y → p = q := by
  have hlist : (xs.map f).Nodup ↔ (places.map fun p => (at? p).map f).Nodup := by
    have hnames : (places.map fun p => (at? p).map f) = (xs.map f).map some := by
      have hshows := congrArg (List.map (Option.map f)) h.shows
      simpa [List.map_map, Function.comp_def] using hshows
    rw [hnames, List.nodup_map_iff fun _ _ => Option.some.inj]
  have hplaces : places.Nodup := h.sorted.imp fun hlt => ne_of_lt hlt
  rw [hlist, List.nodup_map_iff_inj_on hplaces]
  constructor
  · intro hinj p q x y hx hy hname
    refine hinj p ((h.mem_iff p).mpr (hx ▸ rfl)) q ((h.mem_iff q).mpr (hy ▸ rfl)) ?_
    rw [hx, hy, Option.map_some, Option.map_some, hname]
  · intro hinj p hp q hq hname
    obtain ⟨x, hx⟩ := Option.isSome_iff_exists.mp ((h.mem_iff p).mp hp)
    obtain ⟨y, hy⟩ := Option.isSome_iff_exists.mp ((h.mem_iff q).mp hq)
    rw [hx, hy, Option.map_some, Option.map_some] at hname
    exact hinj p q x y hx hy (Option.some.inj hname)

/-- What is listed before something stands at the places before it. -/
lemma split {y : α} (h : Enumerates at? places (xs ++ y :: ys)) :
    ∃ q before, at? q = some y ∧
      Enumerates (fun p => if p < q then at? p else none) before xs := by
  have hshows := h.shows
  rw [List.map_append, List.map_cons] at hshows
  obtain ⟨before, rest, rfl, hbefore, hrest⟩ := List.map_eq_append_iff.mp hshows
  obtain ⟨q, after, rfl, hq, -⟩ := List.map_eq_cons_iff.mp hrest
  obtain ⟨hsorted, hafter, hcross⟩ := List.pairwise_append.mp h.sorted
  have hlt : ∀ p ∈ before, p < q := fun p hp => hcross p hp q List.mem_cons_self
  refine ⟨q, before, hq, hsorted, fun p => ?_, ?_⟩
  · have hmem := h.mem_iff p
    rw [List.mem_append] at hmem
    by_cases hp : p < q
    · rw [if_pos hp, ← hmem]
      refine (or_iff_left fun hlater => ?_).symm
      rcases List.mem_cons.mp hlater with rfl | hlater
      · exact List.lt_irrefl p hp
      · exact List.lt_asymm hp ((List.pairwise_cons.mp hafter).1 p hlater)
    · rw [if_neg hp]
      exact iff_of_false (fun hmem => hp (hlt p hmem)) nofun
  · rw [← hbefore]
    exact List.map_congr_left fun p hp => if_pos (hlt p hp)

/-- What stands at a root comes before what stands in the trees below it. -/
lemma root {below : List β} {inner : β → Place → Option α}
    (h : Enumerates (among inner below) places xs) (hroot : at? [] = some x)
    (hbelow : ∀ k rest, at? (k :: rest) = among inner below (k :: rest)) :
    Enumerates at? ([] :: places) (x :: xs) where
  sorted := by
    refine List.pairwise_cons.mpr ⟨fun place hplace => ?_, h.sorted⟩
    cases place with
    | nil => cases (h.mem_iff []).mp hplace
    | cons k rest => exact List.nil_lt_cons k rest
  mem_iff := by
    rintro (_ | ⟨k, rest⟩)
    · simp [hroot]
    · rw [hbelow, ← h.mem_iff]
      simp
  shows := by
    have hsame : places.map at? = places.map (among inner below) := by
      refine List.map_congr_left fun place hplace => ?_
      cases place with
      | nil => cases (h.mem_iff []).mp hplace
      | cons k rest => exact hbelow k rest
    rw [List.map_cons, List.map_cons, hroot, hsame, h.shows]

/-- One more tree comes after the others. -/
lemma snoc {inner : β → Place → Option α} {trees : List β} {tree : β}
    (h : Enumerates (among inner trees) before xs) (htree : Enumerates (inner tree) after ys) :
    Enumerates (among inner (trees ++ [tree]))
      (before ++ after.map (trees.length :: ·)) (xs ++ ys) := by
  have hearlier : ∀ place ∈ before, ∃ k rest, place = k :: rest ∧ k < trees.length :=
    fun place hplace => exists_cons_of_among ((h.mem_iff place).mp hplace)
  refine ⟨List.pairwise_append.mpr ⟨h.sorted, ?_, ?_⟩, ?_, ?_⟩
  · refine List.pairwise_map.mpr (htree.sorted.imp fun hlt => ?_)
    exact List.cons_lt_cons_iff.mpr (Or.inr ⟨rfl, hlt⟩)
  · intro place hplace later hlater
    obtain ⟨k, rest, rfl, hk⟩ := hearlier place hplace
    obtain ⟨rest', -, rfl⟩ := List.mem_map.mp hlater
    exact List.cons_lt_cons_iff.mpr (Or.inl hk)
  · rintro (_ | ⟨k, rest⟩)
    · have hnil : [] ∉ before := fun hmem => nomatch (h.mem_iff []).mp hmem
      simp [hnil, among]
    · by_cases hk : k = trees.length
      · have hrest : k :: rest ∉ before := by
          intro hmem
          obtain ⟨k', rest', heq, hk'⟩ := hearlier _ hmem
          exact Nat.ne_of_lt hk' ((List.cons.inj heq).1 ▸ hk)
        subst hk
        rw [among_concat_length, ← htree.mem_iff]
        simp [hrest]
      · rw [among_concat_of_ne hk, ← h.mem_iff]
        simp [Ne.symm hk]
  · rw [List.map_append, List.map_append, List.map_map, ← h.shows, ← htree.shows]
    congr 1
    · refine List.map_congr_left fun place hplace => ?_
      obtain ⟨k, rest, rfl, hk⟩ := hearlier place hplace
      exact among_concat_of_ne (Nat.ne_of_lt hk)
    · exact List.map_congr_left fun rest _ => among_concat_length

end Enumerates

/-- The trees of a list are shown one after another. -/
lemma exists_enumerates_among {inner : β → Place → Option α} {list : β → List α} (trees : List β)
    (h : ∀ tree ∈ trees, ∃ places, Enumerates (inner tree) places (list tree)) :
    ∃ places, Enumerates (among inner trees) places (trees.flatMap list) := by
  induction trees using List.reverseRecOn with
  | nil =>
    refine ⟨[], .nil, ?_, rfl⟩
    rintro (_ | ⟨k, rest⟩) <;> simp [among]
  | append_singleton trees tree ih =>
    obtain ⟨before, hbefore⟩ := ih fun t ht => h t (List.mem_append_left _ ht)
    obtain ⟨after, hafter⟩ := h tree (List.mem_append_right _ List.mem_cons_self)
    have hboth := hbefore.snoc hafter
    rw [← List.flatMap_singleton list tree, ← List.flatMap_append] at hboth
    exact ⟨_, hboth⟩

end Enumeration

/-! ### Declared types -/

/-- What is declared at a place in a type: the type itself, or what is declared at the rest of the
place in one of the types nested in it. -/
def TypeDeclaration.declaredAt? (origin : String) (name : TypeName) (t : TypeDeclaration) :
    Place → Option DeclaredType
  | [] => some { name, declaration := { t with nested := [] }, origin }
  | k :: rest => t.nested[k]?.bind fun child =>
    child.declaredAt? origin (name.nested child.name) rest

/-- What is declared at a place in a file. -/
def DeclarationFile.declaredAt? (file : String × DeclarationFile) : Place → Option DeclaredType :=
  among (fun t => t.declaredAt? file.1 (.topLevel (file.2.package.getD "") t.name)) file.2.types

/-- What is declared at a place in some files. -/
def CompilationUnit.declaredAt? (files : List (String × DeclarationFile)) :
    Place → Option DeclaredType :=
  among DeclarationFile.declaredAt? files

mutual

/-- A type is listed with those nested in it, in the order of the places. -/
theorem TypeDeclaration.exists_enumerates (origin : String) (name : TypeName) :
    ∀ t : TypeDeclaration, ∃ places,
      Enumerates (t.declaredAt? origin name) places (t.flatten origin name)
  | .mk simple kind schema description properties values discriminator variants nested
      ignoreProperties includeProperties additionalProperties => by
    have heach := TypeDeclaration.forall_exists_enumerates origin name.nested nested
    obtain ⟨places, hplaces⟩ := exists_enumerates_among nested heach
    rw [← TypeDeclaration.flattenList_eq] at hplaces
    exact ⟨[] :: places, hplaces.root rfl fun _ _ => rfl⟩

/-- Each type of a list is listed with those nested in it. -/
theorem TypeDeclaration.forall_exists_enumerates (origin : String) (qualify : String → TypeName) :
    ∀ ts : List TypeDeclaration, ∀ t ∈ ts, ∃ places,
      Enumerates (t.declaredAt? origin (qualify t.name)) places (t.flatten origin (qualify t.name))
  | [] => fun _ h => absurd h List.not_mem_nil
  | t :: ts => List.forall_mem_cons.mpr
      ⟨TypeDeclaration.exists_enumerates origin (qualify t.name) t,
        TypeDeclaration.forall_exists_enumerates origin qualify ts⟩

end

namespace CompilationUnit

variable {unit : CompilationUnit} {files : List (String × DeclarationFile)} {t : DeclaredType}
  {d : DuplicateDeclaration}

/-- The types of some files are listed in the order of their places. -/
theorem enumerates_typesOf (files : List (String × DeclarationFile)) :
    ∃ places, Enumerates (declaredAt? files) places (typesOf files) := by
  refine exists_enumerates_among files fun file _ => ?_
  unfold DeclarationFile.declaredAt? DeclarationFile.declaredTypes
  rw [TypeDeclaration.flattenList_eq]
  exact exists_enumerates_among _ fun t _ =>
    TypeDeclaration.exists_enumerates file.1 (.topLevel (file.2.package.getD "") t.name) t

/-! ### Repeated names -/

/-- The second place is the first one at which a full name comes again, and the first place is
where it was declared before. -/
structure RepeatsFirst (at? : Place → Option DeclaredType) (p q : Place)
    (first second : DeclaredType) : Prop where
  earlier : p < q
  atFirst : at? p = some first
  atSecond : at? q = some second
  same : first.name.qualified = second.name.qualified
  least : ∀ p' q' t u, p' < q' → q' < q → at? p' = some t → at? q' = some u →
    t.name.qualified ≠ u.name.qualified

/-- Where a list of types has a full name again for the first time. -/
def Repeated (types : List DeclaredType) (d : DuplicateDeclaration) : Prop :=
  ∃ before first second after, types = before ++ second :: after ∧
    (before.map (·.name.qualified)).Nodup ∧ first ∈ before ∧
    first.name.qualified = second.name.qualified ∧
    d = ⟨second.name.qualified, first.origin, second.origin⟩

/-- More types after a repeated name do not matter. -/
lemma Repeated.append {types : List DeclaredType} (h : Repeated types d)
    (more : List DeclaredType) : Repeated (types ++ more) d := by
  obtain ⟨before, first, second, after, rfl, h⟩ := h
  exact ⟨before, first, second, after ++ more, by simp, h⟩

/-- A type that is refused repeats the full name of a type that is there. -/
lemma repeated_of_addType (hunit : unit.Distinct) (h : unit.addType t = .error d) :
    Repeated (unit.types ++ [t]) d := by
  unfold addType at h
  split at h
  · next first hfirst =>
    obtain ⟨hmem, hname⟩ := (lookup?_eq_some_iff hunit).mp hfirst
    exact ⟨unit.types, first, t, [], rfl, hunit, hmem, hname, (Except.error.inj h).symm⟩
  · cases h

/-- Types of which one is refused repeat a full name. -/
lemma repeated_of_foldlM {types : List DeclaredType} (hunit : unit.Distinct)
    (h : types.foldlM addType unit = .error d) : Repeated (unit.types ++ types) d := by
  induction types generalizing unit with
  | nil => cases h
  | cons t types ih =>
    rw [List.foldlM_cons] at h
    cases hadd : unit.addType t with
    | error d' =>
      rw [hadd] at h
      obtain rfl : d' = d := Except.error.inj h
      simpa using (repeated_of_addType hunit hadd).append types
    | ok unit' =>
      rw [hadd] at h
      obtain ⟨rfl, hunit'⟩ := (addType_eq_ok_iff hunit).mp hadd
      simpa [withTypes] using ih hunit' h

/-- A unit that does not exist has a repeated full name. -/
lemma repeated_of_ofFiles (h : ofFiles files = .error d) : Repeated (typesOf files) d := by
  have hfiles : ∀ (files : List (String × DeclarationFile)) (unit : CompilationUnit),
      unit.Distinct → files.foldlM (fun unit file => unit.addFile file.1 file.2) unit = .error d →
        Repeated (unit.types ++ typesOf files) d := by
    intro files
    induction files with
    | nil => exact fun _ _ h => nomatch h
    | cons file files ih =>
      intro unit hunit h
      rw [List.foldlM_cons] at h
      rw [typesOf, List.flatMap_cons, ← List.append_assoc]
      cases hadd : unit.addFile file.1 file.2 with
      | error d' =>
        rw [hadd] at h
        obtain rfl : d' = d := Except.error.inj h
        have hconfigured : Distinct { unit with configurations := unit.configurations ++
            (file.2.configuration.map fun c => (file.1, c)).toList } := hunit
        exact (repeated_of_foldlM hconfigured hadd).append _
      | ok unit' =>
        rw [hadd] at h
        obtain ⟨rfl, hunit'⟩ := (addFile_eq_ok_iff hunit).mp hadd
        exact ih _ hunit' h
  exact hfiles files {} List.nodup_nil h

/-- The first repeated name of a list stands at the first place that repeats a name. -/
lemma Repeated.exists_places {at? : Place → Option DeclaredType} {places : List Place}
    {types : List DeclaredType} (h : Repeated types d) (hplaces : Enumerates at? places types) :
    ∃ p q first second, RepeatsFirst at? p q first second ∧
      d = ⟨second.name.qualified, first.origin, second.origin⟩ := by
  obtain ⟨before, first, second, after, rfl, hnodup, hfirst, hname, rfl⟩ := h
  obtain ⟨q, earlier, hq, hearlier⟩ := hplaces.split
  obtain ⟨p, hp⟩ := hearlier.mem_values_iff.mp hfirst
  obtain ⟨hlt, hp⟩ := Option.ite_none_right_eq_some.mp hp
  refine ⟨p, q, first, second, ⟨hlt, hp, hq, hname, ?_⟩, rfl⟩
  intro p' q' t u hlt' hq' ht hu hsame
  refine ne_of_lt hlt' (hearlier.nodup_map_iff.mp hnodup p' q' t u ?_ ?_ hsame)
  · rw [if_pos (hlt'.trans hq'), ht]
  · rw [if_pos hq', hu]

/-- The unit of some files exists exactly if no two places have types of one full name.  It lists
what is declared at the places, in their order, and a full name finds the type that is declared
under it; two types of one full name have one name.  Where there is no unit, the first place that
repeats a full name is reported with the file of that name's first place. -/
theorem ofFiles_places (files : List (String × DeclarationFile)) :
    ((∃ unit, ofFiles files = .ok unit) ↔
      ∀ p q t u, declaredAt? files p = some t → declaredAt? files q = some u →
        t.name.qualified = u.name.qualified → p = q) ∧
    (∀ unit, ofFiles files = .ok unit →
      (∃ places, Enumerates (declaredAt? files) places unit.types) ∧
      (∀ qualified t, unit.lookup? qualified = some t ↔
        (∃ place, declaredAt? files place = some t) ∧ t.name.qualified = qualified) ∧
      ∀ t ∈ unit.types, ∀ u ∈ unit.types,
        t.name.qualified = u.name.qualified → t.name = u.name) ∧
    ∀ d, ofFiles files = .error d → ∃ p q first second,
      RepeatsFirst (declaredAt? files) p q first second ∧
        d = ⟨second.name.qualified, first.origin, second.origin⟩ := by
  obtain ⟨places, hplaces⟩ := enumerates_typesOf files
  refine ⟨?_, fun unit hunit => ?_, fun d hd => (repeated_of_ofFiles hd).exists_places hplaces⟩
  · rw [← hplaces.nodup_map_iff]
    simp only [ofFiles_eq_ok_iff, exists_eq_left]
    rfl
  · obtain ⟨rfl, hdistinct⟩ := ofFiles_eq_ok_iff.mp hunit
    refine ⟨⟨places, hplaces⟩, fun qualified t => ?_, fun t ht u hu hname => ?_⟩
    · rw [lookup?_eq_some_iff hdistinct, ← hplaces.mem_values_iff]
    · rw [List.inj_on_of_nodup_map hdistinct ht hu hname]

/-- Wombats, and the burrows nested in them. -/
def wombats : String × DeclarationFile :=
  ("wombats.yaml",
    { package := some "zoo"
      types :=
        [ { name := "Wombat"
            nested :=
              [{ name := "Burrow", nested := [{ name := "Tunnel" }] }, { name := "Diet" }] },
          { name := "Llama" }] })

/-- A package with the full name of the wombats. -/
def burrows : String × DeclarationFile :=
  ("burrows.yaml",
    { package := some "zoo.Wombat", types := [{ name := "Den" }, { name := "Burrow" }] })

/-- The tunnel in the burrow is listed before the diet of the wombat.  A package of the same full
name repeats the burrow, which is nested elsewhere. -/
theorem ofFiles_wombats : ∃ unit, ofFiles [wombats] = .ok unit ∧
    unit.types.map (·.name.qualified) =
      ["zoo.Wombat", "zoo.Wombat.Burrow", "zoo.Wombat.Burrow.Tunnel", "zoo.Wombat.Diet",
        "zoo.Llama"] ∧
    (∃ places, Enumerates (declaredAt? [wombats]) places unit.types) ∧
    (∃ t, unit.lookup? "zoo.Wombat.Burrow" = some t ∧
      ∃ place, declaredAt? [wombats] place = some t) ∧
    ofFiles [wombats, burrows] =
      .error ⟨"zoo.Wombat.Burrow", "wombats.yaml", "burrows.yaml"⟩ ∧
    ∃ p q first second, RepeatsFirst (declaredAt? [wombats, burrows]) p q first second ∧
      first.origin = "wombats.yaml" ∧ second.origin = "burrows.yaml" := by
  obtain ⟨-, hunit, -⟩ := ofFiles_places [wombats]
  obtain ⟨-, -, hrepeated⟩ := ofFiles_places [wombats, burrows]
  obtain ⟨hplaces, hlookup, -⟩ := hunit _ rfl
  have hburrow := (hlookup "zoo.Wombat.Burrow" _).mp rfl
  refine ⟨_, rfl, by decide, hplaces, ⟨_, rfl, hburrow.1⟩, rfl, ?_⟩
  obtain ⟨p, q, first, second, h, hd⟩ := hrepeated _ rfl
  obtain ⟨-, hfirst, hsecond⟩ := DuplicateDeclaration.mk.inj hd
  exact ⟨p, q, first, second, h, hfirst.symm, hsecond.symm⟩

end CompilationUnit

end SchemaCompiler
