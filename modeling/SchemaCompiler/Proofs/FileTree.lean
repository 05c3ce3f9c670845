import Mathlib.Data.List.Induction
import SchemaCompiler.FileTree
import SchemaCompiler.Proofs.Outcome
import SchemaCompiler.Proofs.Path

/-!
# Files in one directory

What a tree shows and takes up under the names in one directory, given by the components of its
path.  Once the components lead to a directory (`FileTree.Ready`), a file is read from and written
to its location there, and nothing else is touched.  Before that, every name in the directory is out
of reach for the same reason (`FileTree.exists_fault_of_not_ready`).

Making the directory is a different matter where `..` stands in the path: what could not be reached
before, because a name in front of `..` was missing, can be there already afterwards.  Where `..` is
only taken out of directories that are there (`FileTree.Enters`), a directory that had to be made is
empty (`FileTree.fresh_of_makeDirectories`).
-/

namespace SchemaCompiler

namespace Path

variable {base name : String}

/-- The last characters of a path to a name are those of the name. -/
lemma exists_toList_join (base name : String) :
    ∃ before, (join base name).toList = before ++ name.toList := by
  unfold join
  split
  · exact ⟨[], rfl⟩
  · split
    · exact ⟨base.toList, String.toList_append⟩
    · exact ⟨base.toList ++ ['/'], by simp [String.toList_append]⟩

/-- A path to a name is not empty. -/
lemma join_ne_empty (base : String) (h : IsName name) : (join base name).isEmpty = false := by
  obtain ⟨before, hchars⟩ := exists_toList_join base name
  have hne : join base name ≠ "" := by
    intro heq
    rw [heq] at hchars
    have hnil : name.toList = [] := (List.append_eq_nil_iff.mp hchars.symm).2
    exact h.ne_empty (String.toList_injective hnil)
  simpa using hne

/-- A path to a name can lead to a file. -/
lemma namesDirectory_join (base : String) (h : IsName name) :
    FileTree.namesDirectory (join base name) = false := by
  obtain ⟨before, hchars⟩ := exists_toList_join base name
  have hslash : '/' ∉ name.toList.reverse := by simpa using h.noSlash
  have hempty : name.toList.reverse ≠ [] :=
    fun heq => h.ne_empty (String.toList_injective (by simpa using heq))
  have hpoint : name.toList.reverse ≠ ['.'] :=
    fun heq => h.ne_current (String.toList_injective (by simpa using heq))
  unfold FileTree.namesDirectory
  rw [hchars, List.reverse_append]
  generalize name.toList.reverse = cs at hslash hempty hpoint
  -- The last two characters are those of the name, except for one that is a single character.
  match cs with
  | [] => exact absurd rfl hempty
  | [c] =>
    have hc : c ≠ '/' ∧ c ≠ '.' := by
      constructor
      · rintro rfl
        exact hslash List.mem_cons_self
      · rintro rfl
        exact hpoint rfl
    split <;> simp_all
  | c :: d :: rest =>
    have hc : c ≠ '/' ∧ d ≠ '/' := by
      constructor
      · rintro rfl
        exact hslash List.mem_cons_self
      · rintro rfl
        exact hslash (List.mem_cons_of_mem _ List.mem_cons_self)
    split <;> simp_all

/-- The pieces of a path are no roots. -/
lemma root_not_mem_ofPieces (pieces : List (List Char)) : Component.root ∉ ofPieces pieces := by
  induction pieces using ofPieces.induct <;> simp_all [ofPieces]

end Path

namespace FileTree

open SchemaCompiler.Path (Component)

variable {files : FileTree} {location other : Location} {name : String}
  {directory rest : List Component} {entry : Entry}

/-! ### Entries -/

/-- Another location holds what it held before. -/
lemma entry?_put_of_ne (h : other ≠ location) :
    entry? (files.put location entry) other = files.entry? other := by
  unfold entry? put
  rw [Association.lookup_insert_of_ne h]

/-- A location below the working directory holds what is put there. -/
lemma entry?_put_self (h : files.entry? location ≠ some .directory) :
    entry? (files.put location entry) location = some entry := by
  unfold entry? at h ⊢
  split at h
  · exact absurd rfl h
  · next habove => rw [if_neg habove, put, Association.lookup_insert_self]

/-- A directory is expected where there is one. -/
lemma expectDirectory_eq_ok_iff :
    files.expectDirectory location = .ok () ↔ files.entry? location = some .directory := by
  unfold expectDirectory
  split <;> simp_all

/-- The location above a name is the one that the name was added to. -/
lemma above_concat (h : Path.IsName name) : above (location ++ [name]) = location := by
  have hroot : name ≠ "/" := fun heq => h.noSlash (heq ▸ by decide)
  have hparent := h.ne_parent
  unfold above
  rw [List.getLast?_concat]
  split <;> simp_all

/-! ### Walks -/

/-- Components after others are followed from where the others lead. -/
lemma walk_append (files : FileTree) (location : Location) (first second : List Component) :
    files.walk location (first ++ second) =
      files.walk location first >>= fun reached => files.walk reached second := by
  induction first generalizing location with
  | nil => rfl
  | cons component first ih =>
    cases component with
    | root | current => exact ih _
    | parent | name text =>
      rw [List.cons_append, walk, walk]
      cases files.expectDirectory location with
      | error fault => rfl
      | ok _ => exact ih _

/-- A name is looked up in a directory. -/
lemma walk_name_eq_ok_iff {reached : Location} :
    files.walk location (.name name :: rest) = .ok reached ↔
      files.entry? location = some .directory ∧
        files.walk (location ++ [name]) rest = .ok reached := by
  rw [walk, bind_eq_ok_iff, ← expectDirectory_eq_ok_iff]
  exact ⟨fun ⟨_, h⟩ => h, fun h => ⟨(), h⟩⟩

/-- What is above is looked up from a directory. -/
lemma walk_parent_eq_ok_iff {reached : Location} :
    files.walk location (.parent :: rest) = .ok reached ↔
      files.entry? location = some .directory ∧
        files.walk (above location) rest = .ok reached := by
  rw [walk, bind_eq_ok_iff, ← expectDirectory_eq_ok_iff]
  exact ⟨fun ⟨_, h⟩ => h, fun h => ⟨(), h⟩⟩

/-- Where components lead to a directory, they start from one. -/
lemma directory_of_walk {reached : Location} (hroot : .root ∉ rest)
    (hwalk : files.walk location rest = .ok reached)
    (hreached : files.entry? reached = some .directory) :
    files.entry? location = some .directory := by
  induction rest generalizing location with
  | nil =>
    obtain rfl : location = reached := Except.ok.inj hwalk
    exact hreached
  | cons component rest ih =>
    cases component with
    | root => exact absurd List.mem_cons_self hroot
    | current => exact ih (fun hmem => hroot (List.mem_cons_of_mem _ hmem)) hwalk
    | parent => exact (walk_parent_eq_ok_iff.mp hwalk).1
    | name text => exact (walk_name_eq_ok_iff.mp hwalk).1

/-! ### Making directories -/

/-- Where components lead to a directory, there is none to make. -/
lemma makeDirectories_of_walk {reached : Location} (hroot : .root ∉ rest)
    (hwalk : files.walk location rest = .ok reached)
    (hreached : files.entry? reached = some .directory) :
    files.makeDirectories location rest = .ok files := by
  induction rest generalizing location with
  | nil => rfl
  | cons component rest ih =>
    have hrest : .root ∉ rest := fun hmem => hroot (List.mem_cons_of_mem _ hmem)
    cases component with
    | root => exact absurd List.mem_cons_self hroot
    | current => exact ih hrest hwalk
    | parent => exact ih hrest (walk_parent_eq_ok_iff.mp hwalk).2
    | name text =>
      have hwalk := (walk_name_eq_ok_iff.mp hwalk).2
      rw [makeDirectories, directory_of_walk hrest hwalk hreached]
      exact ih hrest hwalk

/-- Making directories changes nothing that is there, and adds nothing but directories. -/
lemma entry?_of_makeDirectories {made : FileTree}
    (h : files.makeDirectories location rest = .ok made) (other : Location) :
    made.entry? other = files.entry? other ∨
      files.entry? other = none ∧ made.entry? other = some .directory := by
  induction rest generalizing files location with
  | nil =>
    obtain rfl : files = made := Except.ok.inj h
    exact Or.inl rfl
  | cons component rest ih =>
    cases component with
    | root | current | parent => exact ih h
    | name text =>
      rw [makeDirectories] at h
      split at h
      · exact ih h
      · cases h
      · next hnone =>
        by_cases hother : other = location ++ [text]
        · have hput : entry? (files.put (location ++ [text]) .directory) other =
              some .directory := by
            rw [hother, entry?_put_self (by simp [hnone])]
          refine Or.inr ⟨hother ▸ hnone, ?_⟩
          rcases ih h with hsame | ⟨hbefore, -⟩
          · rw [hsame, hput]
          · rw [hput] at hbefore
            cases hbefore
        · rcases ih h with hsame | ⟨hbefore, hafter⟩
          · exact Or.inl (hsame.trans (entry?_put_of_ne hother))
          · exact Or.inr ⟨(entry?_put_of_ne hother).symm.trans hbefore, hafter⟩

/-! ### Fresh directories -/

/-- What is there stands in a directory, and there is a directory above every directory. -/
structure WellFormed (files : FileTree) : Prop where
  below : ∀ location name, files.entry? (location ++ [name]) ≠ none →
    files.entry? location = some .directory
  above : ∀ location, files.entry? location = some .directory →
    files.entry? (above location) = some .directory

/-- Components, followed from a location, take `..` only out of directories that are there. -/
def Enters (files : FileTree) : Location → List Component → Prop
  | _, [] => True
  | _, .root :: rest => files.Enters ["/"] rest
  | location, .current :: rest => files.Enters location rest
  | location, .parent :: rest =>
    files.entry? location = some .directory ∧ files.Enters (above location) rest
  | location, .name text :: rest => files.Enters (location ++ [text]) rest

/-- Components without `..` never take it. -/
lemma enters_of_parent_not_mem (h : .parent ∉ rest) : files.Enters location rest := by
  induction rest generalizing location with
  | nil => trivial
  | cons component rest ih =>
    have hrest : .parent ∉ rest := fun hmem => h (List.mem_cons_of_mem _ hmem)
    cases component with
    | parent => exact absurd List.mem_cons_self h
    | root | current | name => exact ih hrest

/-- The location above one that is not below the working directory is not below it either. -/
lemma isAbove_above (h : isAbove location = true) : isAbove (above location) = true := by
  have hall : ∀ name ∈ location, name = ".." ∨ name = "/" := by simpa [isAbove] using h
  unfold above
  split
  · rfl
  · simpa [isAbove] using hall
  · exact h
  · simpa [isAbove] using fun name hname => hall name (List.dropLast_subset _ hname)

/-- What is at a location below the working directory is listed. -/
lemma mem_entries (hbelow : isAbove location = false) (h : files.entry? location = some entry) :
    (location, entry) ∈ files.entries := by
  unfold entry? at h
  rw [hbelow, if_neg Bool.false_ne_true] at h
  obtain ⟨before, after, hlist, -⟩ := List.lookup_eq_some_iff.mp h
  rw [hlist]
  simp

/-- A tree is well-formed if what it lists is. -/
lemma wellFormed_of_entries (hbelow : ∀ listed ∈ files.entries,
      files.entry? listed.1.dropLast = some .directory)
    (habove : ∀ listed ∈ files.entries, files.entry? (above listed.1) = some .directory) :
    files.WellFormed where
  below := by
    intro location name hentry
    by_cases hname : isAbove (location ++ [name]) = true
    · have hlocation : isAbove location = true := by
        rw [isAbove, List.all_append, Bool.and_eq_true] at hname
        exact hname.1
      unfold entry?
      rw [if_pos hlocation]
    · obtain ⟨entry, hentry⟩ := Option.ne_none_iff_exists'.mp hentry
      have hlisted := hbelow _ (mem_entries (Bool.eq_false_iff.mpr hname) hentry)
      simpa using hlisted
  above := by
    intro location hentry
    by_cases hlocation : isAbove location = true
    · unfold entry?
      rw [if_pos (isAbove_above hlocation)]
    · exact habove _ (mem_entries (Bool.eq_false_iff.mpr hlocation) hentry)

/-- There is nothing below a location where there is nothing. -/
lemma WellFormed.entry?_append (h : files.WellFormed) (hnone : files.entry? location = none)
    (names : List String) : files.entry? (location ++ names) = none := by
  induction names using List.reverseRecOn with
  | nil => rw [List.append_nil, hnone]
  | append_singleton names name ih =>
    cases hentry : files.entry? (location ++ (names ++ [name])) with
    | none => rfl
    | some entry =>
      rw [← List.append_assoc] at hentry
      have hdirectory := h.below (location ++ names) name (by rw [hentry]; exact nofun)
      rw [ih] at hdirectory
      cases hdirectory

/-- Where there is nothing, `..` is not taken. -/
lemma Enters.parent_not_mem (h : files.Enters location rest) (hroot : .root ∉ rest)
    (hnone : ∀ names, files.entry? (location ++ names) = none) : .parent ∉ rest := by
  induction rest generalizing location with
  | nil => exact List.not_mem_nil
  | cons component rest ih =>
    have hrest : .root ∉ rest := fun hmem => hroot (List.mem_cons_of_mem _ hmem)
    cases component with
    | root => exact absurd List.mem_cons_self hroot
    | current => simpa using ih h hrest hnone
    | parent =>
      have hlocation := hnone []
      rw [List.append_nil, h.1] at hlocation
      cases hlocation
    | name text =>
      have hbelow : ∀ names, files.entry? (location ++ [text] ++ names) = none := by
        intro names
        rw [List.append_assoc]
        exact hnone _
      simpa using ih h hrest hbelow

/-- Directories that are made one in another are empty. -/
lemma empty_of_makeDirectories {made : FileTree} {reached : Location} (hroot : .root ∉ rest)
    (hparent : .parent ∉ rest)
    (hnone : ∀ name names, files.entry? (location ++ name :: names) = none)
    (hmade : files.makeDirectories location rest = .ok made)
    (hwalk : made.walk location rest = .ok reached) (name : String) :
    made.entry? (reached ++ [name]) = none := by
  induction rest generalizing files location with
  | nil =>
    obtain rfl : files = made := Except.ok.inj hmade
    obtain rfl : location = reached := Except.ok.inj hwalk
    exact hnone name []
  | cons component rest ih =>
    have hroot' : .root ∉ rest := fun hmem => hroot (List.mem_cons_of_mem _ hmem)
    have hparent' : .parent ∉ rest := fun hmem => hparent (List.mem_cons_of_mem _ hmem)
    cases component with
    | root => exact absurd List.mem_cons_self hroot
    | parent => exact absurd List.mem_cons_self hparent
    | current => exact ih hroot' hparent' hnone hmade hwalk
    | name text =>
      rw [makeDirectories, hnone text []] at hmade
      refine ih hroot' hparent' ?_ hmade (walk_name_eq_ok_iff.mp hwalk).2
      intro other names
      have hne : location ++ [text] ++ other :: names ≠ location ++ [text] := by simp
      rw [entry?_put_of_ne hne, List.append_assoc]
      exact hnone text (other :: names)

/-- A directory that has to be made is empty afterwards, if `..` is only taken out of directories
that are there. -/
lemma fresh_of_makeDirectories {made : FileTree} {reached : Location} (hfiles : files.WellFormed)
    (hroot : .root ∉ rest) (henters : files.Enters location rest)
    (hlocation : files.entry? location = some .directory)
    (hnew : ∀ old, files.walk location rest = .ok old → files.entry? old ≠ some .directory)
    (hmade : files.makeDirectories location rest = .ok made)
    (hwalk : made.walk location rest = .ok reached) (name : String) :
    made.entry? (reached ++ [name]) = none := by
  induction rest generalizing location with
  | nil => exact absurd hlocation (hnew location rfl)
  | cons component rest ih =>
    have hrest : .root ∉ rest := fun hmem => hroot (List.mem_cons_of_mem _ hmem)
    cases component with
    | root => exact absurd List.mem_cons_self hroot
    | current => exact ih hrest henters hlocation hnew hmade hwalk
    | parent =>
      refine ih hrest henters.2 (hfiles.above location hlocation) ?_ hmade
        (walk_parent_eq_ok_iff.mp hwalk).2
      intro old hold
      exact hnew old (walk_parent_eq_ok_iff.mpr ⟨hlocation, hold⟩)
    | name text =>
      have hwalk := (walk_name_eq_ok_iff.mp hwalk).2
      rw [makeDirectories] at hmade
      split at hmade
      · next hthere =>
        refine ih hrest henters hthere ?_ hmade hwalk
        intro old hold
        exact hnew old (walk_name_eq_ok_iff.mpr ⟨hlocation, hold⟩)
      · cases hmade
      · next hnone =>
        -- From here on every directory is a new one.
        have hbelow := hfiles.entry?_append hnone
        have henters : files.Enters (location ++ [text]) rest := henters
        have hparent := henters.parent_not_mem hrest hbelow
        refine empty_of_makeDirectories hrest hparent ?_ hmade hwalk name
        intro other names
        have hne : location ++ [text] ++ other :: names ≠ location ++ [text] := by simp
        rw [entry?_put_of_ne hne]
        exact hbelow _

/-! ### Directories of paths -/

/-- A root stands only at the beginning of a path, if at all. -/
lemma exists_components (path : String) : ∃ rest, .root ∉ rest ∧
    (Path.components path = rest ∨ Path.components path = .root :: rest) := by
  have hpieces := Path.root_not_mem_ofPieces
  rw [Path.components_eq_assemble]
  unfold Path.assemble
  split
  · exact ⟨_, hpieces _, Or.inr rfl⟩
  · split
    · exact ⟨_, by simpa using hpieces _, Or.inl rfl⟩
    · exact ⟨_, hpieces _, Or.inl rfl⟩

/-- A path leads to a directory. -/
structure Ready (files : FileTree) (base : String) (location : Location) : Prop where
  reached : files.walk [] (Path.components base) = .ok location
  isDirectory : files.entry? location = some .directory

variable {base text : String} {made : FileTree}

/-- Where a path leads to a directory, there is none to make. -/
lemma Ready.makeDirectories_eq (h : files.Ready base location) :
    files.makeDirectories [] (Path.components base) = .ok files := by
  have hreached := h.reached
  obtain ⟨rest, hroot, hbase | hbase⟩ := exists_components base
  · rw [hbase] at hreached ⊢
    exact makeDirectories_of_walk hroot hreached h.isDirectory
  · rw [hbase] at hreached ⊢
    have hwalk : files.walk ["/"] rest = .ok location := hreached
    have hmade : files.makeDirectories ["/"] rest = .ok files :=
      makeDirectories_of_walk hroot hwalk h.isDirectory
    exact hmade

/-- A directory that had to be made for a path is empty afterwards, if `..` is only taken out of
directories that are there. -/
lemma Ready.empty (h : made.Ready base location) (hfiles : files.WellFormed)
    (henters : files.Enters [] (Path.components base)) (hnew : ∀ old, ¬ files.Ready base old)
    (hmade : files.makeDirectories [] (Path.components base) = .ok made) (name : String) :
    made.entry? (location ++ [name]) = none := by
  have hnew' : ∀ old, files.walk [] (Path.components base) = .ok old →
      files.entry? old ≠ some .directory := fun old hold hdirectory => hnew old ⟨hold, hdirectory⟩
  have hreached := h.reached
  obtain ⟨rest, hroot, hbase | hbase⟩ := exists_components base
  · rw [hbase] at henters hmade hreached hnew'
    exact fresh_of_makeDirectories hfiles hroot henters rfl hnew' hmade hreached name
  · rw [hbase] at henters hmade hreached hnew'
    have hwalk : made.walk ["/"] rest = .ok location := hreached
    exact fresh_of_makeDirectories hfiles hroot henters rfl hnew' hmade hwalk name

/-- A path to a name is followed to its directory first. -/
lemma locate_join (files : FileTree) (base : String) (hname : Path.IsName name) :
    files.locate (Path.join base name) = files.walk [] (Path.components base) >>= fun location =>
      files.expectDirectory location >>= fun _ => .ok (location ++ [name]) := by
  rw [locate, Path.join_ne_empty base hname, Path.components_join hname, walk_append]
  rfl

/-- A path to a name leads to the location of the name in the directory. -/
lemma Ready.locate_join (h : files.Ready base location) (hname : Path.IsName name) :
    files.locate (Path.join base name) = .ok (location ++ [name]) := by
  rw [FileTree.locate_join files base hname, h.reached]
  simp [bind, Except.bind, expectDirectory_eq_ok_iff.mpr h.isDirectory]

/-- A path to a name that leads to a location leads to one in a directory. -/
lemma ready_of_locate_join (hname : Path.IsName name)
    (h : files.locate (Path.join base name) = .ok other) :
    ∃ location, files.Ready base location ∧ other = location ++ [name] := by
  rw [FileTree.locate_join files base hname, bind_eq_ok_iff] at h
  obtain ⟨location, hwalk, h⟩ := h
  obtain ⟨_, hexpect, h⟩ := bind_eq_ok_iff.mp h
  exact ⟨location, ⟨hwalk, expectDirectory_eq_ok_iff.mp hexpect⟩, (Except.ok.inj h).symm⟩

/-- What is found under a name in a directory. -/
lemma Ready.find_join (h : files.Ready base location) (hname : Path.IsName name) :
    files.find (Path.join base name) =
      match files.entry? (location ++ [name]) with
      | some entry => .ok entry
      | none => .error .notFound := by
  unfold find
  rw [h.locate_join hname, Path.namesDirectory_join base hname]
  simp only [bind, Except.bind]
  split <;> simp_all [pure, Except.pure, throw, throwThe, MonadExceptOf.throw]

/-- Where a path does not lead to a directory, all names are out of reach for the same reason. -/
lemma exists_fault_of_not_ready (h : ∀ location, ¬ files.Ready base location) :
    ∃ fault, ∀ name, Path.IsName name → files.find (Path.join base name) = .error fault := by
  have hfault : ∃ fault, ∀ name : String, (files.walk [] (Path.components base) >>=
      fun location => files.expectDirectory location >>= fun _ => .ok (location ++ [name])) =
        (.error fault : Except FileFault Location) := by
    cases hwalk : files.walk [] (Path.components base) with
    | error fault => exact ⟨fault, fun _ => rfl⟩
    | ok location =>
      cases hexpect : files.expectDirectory location with
      | error fault => exact ⟨fault, fun _ => by simp [bind, Except.bind, hexpect]⟩
      | ok _ => exact absurd ⟨hwalk, expectDirectory_eq_ok_iff.mp hexpect⟩ (h location)
  obtain ⟨fault, hfault⟩ := hfault
  refine ⟨fault, fun name hname => ?_⟩
  rw [find, FileTree.locate_join files base hname, hfault name]
  rfl

end FileTree

end SchemaCompiler
