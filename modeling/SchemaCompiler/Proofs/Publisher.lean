import SchemaCompiler.Proofs.FileTree
import SchemaCompiler.Publisher

/-!
# Publishing one text

What publishing a text under a name in the directory of a publisher does to the files.  Where the
directory is there, the name holds the text afterwards and all else stays as it is
(`Publisher.publish_of_ready`).  Where it is not there, publishing fails, or makes it and writes the
text (`Publisher.publish_of_not_ready`, `Publisher.publish_of_makeDirectories`).
-/

namespace SchemaCompiler

open SchemaCompiler.Path (IsName)

namespace FileTree

variable {files after : FileTree} {location other : Location} {base name text : String}
  {content : Content}

/-- A walk leads to the same location as long as directories stay directories. -/
lemma walk_of_directories {rest : List Path.Component} {reached : Location}
    (hkept : ∀ other, files.entry? other = some .directory → after.entry? other = some .directory)
    (h : files.walk location rest = .ok reached) : after.walk location rest = .ok reached := by
  induction rest generalizing location with
  | nil => exact h
  | cons component rest ih =>
    cases component with
    | root | current => exact ih h
    | parent =>
      obtain ⟨hdirectory, hrest⟩ := walk_parent_eq_ok_iff.mp h
      exact walk_parent_eq_ok_iff.mpr ⟨hkept location hdirectory, ih hrest⟩
    | name text =>
      obtain ⟨hdirectory, hrest⟩ := walk_name_eq_ok_iff.mp h
      exact walk_name_eq_ok_iff.mpr ⟨hkept location hdirectory, ih hrest⟩

/-- A directory stays one when a file is put where there is none. -/
lemma Ready.put (h : files.Ready base location) (hentry : files.entry? other ≠ some .directory) :
    (files.put other (.file content)).Ready base location := by
  have hkept : ∀ place, files.entry? place = some .directory →
      FileTree.entry? (files.put other (.file content)) place = some .directory := by
    intro place hplace
    have hne : place ≠ other := by
      rintro rfl
      exact hentry hplace
    rw [entry?_put_of_ne hne, hplace]
  exact ⟨walk_of_directories hkept h.reached, hkept location h.isDirectory⟩

/-- Whether a name in a directory holds a text. -/
lemma Ready.isCurrent_join (h : files.Ready base location) (hname : IsName name) (text : String) :
    files.isCurrent (Path.join base name) text =
      match files.entry? (location ++ [name]) with
      | some (.file content) => .ok (content == .text text)
      | some .directory => .error .isADirectory
      | none => .ok false := by
  unfold isCurrent read
  rw [h.find_join hname]
  cases files.entry? (location ++ [name]) with
  | none => rfl
  | some entry => cases entry <;> rfl

/-- Where a path does not lead to a directory, no name is compared or none holds anything. -/
lemma isCurrent_of_not_ready (h : ∀ location, ¬ files.Ready base location) :
    (∀ name text, IsName name → files.isCurrent (Path.join base name) text = .ok false ∧
      files.hasEntry (Path.join base name) = false) ∨
    ∃ fault, ∀ name text, IsName name →
      files.isCurrent (Path.join base name) text = .error fault := by
  obtain ⟨fault, hfault⟩ := exists_fault_of_not_ready h
  by_cases hmissing : fault = .notFound
  · refine Or.inl fun name text hname => ?_
    have hfind := hfault name hname
    rw [hmissing] at hfind
    constructor
    · rw [isCurrent, read, hfind]
      rfl
    · rw [hasEntry, hfind]
  · refine Or.inr ⟨fault, fun name text hname => ?_⟩
    rw [isCurrent, read, hfault name hname]
    cases fault <;> first | exact absurd rfl hmissing | rfl

/-- A file is written under a name in a directory unless there is a directory of that name. -/
lemma Ready.write_join (h : files.Ready base location) (hname : IsName name)
    (hentry : files.entry? (location ++ [name]) ≠ some .directory) (content : Content) :
    files.write (Path.join base name) content =
      .ok (files.put (location ++ [name]) (.file content)) := by
  have habove : files.expectDirectory (above (location ++ [name])) = .ok () := by
    rw [above_concat hname]
    exact expectDirectory_eq_ok_iff.mpr h.isDirectory
  unfold write
  rw [h.locate_join hname, Path.namesDirectory_join base hname]
  cases hplace : files.entry? (location ++ [name]) with
  | none => simp [bind, Except.bind, hplace, habove, pure, Except.pure]
  | some entry =>
    cases entry with
    | directory => exact absurd hplace hentry
    | file old => simp [bind, Except.bind, hplace, pure, Except.pure]

/-- A file that was written under a name stands in a directory. -/
lemma ready_of_write_join (hname : IsName name)
    (h : files.write (Path.join base name) content = .ok after) :
    ∃ location, files.Ready base location ∧
      files.entry? (location ++ [name]) ≠ some .directory ∧
      after = files.put (location ++ [name]) (.file content) := by
  have hlocate : ∃ other, files.locate (Path.join base name) = .ok other := by
    cases hplace : files.locate (Path.join base name) with
    | ok other => exact ⟨other, rfl⟩
    | error fault =>
      rw [write, hplace] at h
      cases h
  obtain ⟨other, hlocate⟩ := hlocate
  obtain ⟨location, hready, rfl⟩ := ready_of_locate_join hname hlocate
  have hentry : files.entry? (location ++ [name]) ≠ some .directory := by
    intro hdirectory
    rw [write, hlocate] at h
    simp only [bind, Except.bind, hdirectory] at h
    cases h
  rw [hready.write_join hname hentry content] at h
  exact ⟨location, hready, hentry, (Except.ok.inj h).symm⟩

end FileTree

namespace Publisher

variable {p : Publisher} {files after : FileTree} {location : Location} {name text : String}

/-- A file in the directory of a publisher is written once the directory is made. -/
lemma writeFile_of_makeDirectories {made : FileTree} (hname : IsName name)
    (hmade : files.makeDirectories [] (Path.components p.directory) = .ok made) :
    p.writeFile files (Path.join p.directory name) text =
      match made.write (Path.join p.directory name) (.text text) with
      | .ok files => (files, none)
      | .error fault => (made, some fault) := by
  have hempty : (Path.join p.directory name).isEmpty = false := Path.join_ne_empty _ hname
  unfold writeFile
  dsimp only
  rw [Path.components_join hname, List.dropLast_concat, hempty, if_neg Bool.false_ne_true]
  split
  · next heq =>
    rw [hmade] at heq
    cases heq
  · next heq =>
    obtain rfl := Except.ok.inj (hmade.symm.trans heq)
    rfl

/-- In a directory that is there, a file is written under its name and nowhere else. -/
lemma writeFile_of_ready (h : files.Ready p.directory location) (hname : IsName name)
    (hentry : files.entry? (location ++ [name]) ≠ some .directory) (text : String) :
    p.writeFile files (Path.join p.directory name) text =
      (files.put (location ++ [name]) (.file (.text text)), none) := by
  rw [writeFile_of_makeDirectories hname h.makeDirectories_eq, h.write_join hname hentry]

/-- A file that was written stands in a directory, which was made where it was not there. -/
lemma ready_of_writeFile (hname : IsName name)
    (h : p.writeFile files (Path.join p.directory name) text = (after, none)) :
    ∃ made location, files.makeDirectories [] (Path.components p.directory) = .ok made ∧
      made.Ready p.directory location ∧ made.entry? (location ++ [name]) ≠ some .directory ∧
      after = made.put (location ++ [name]) (.file (.text text)) := by
  cases hmade : files.makeDirectories [] (Path.components p.directory) with
  | error fault =>
    have hempty : (Path.join p.directory name).isEmpty = false := Path.join_ne_empty _ hname
    unfold writeFile at h
    rw [Path.components_join hname, List.dropLast_concat] at h
    simp only [hempty, Bool.false_eq_true, if_false, hmade] at h
    cases h
  | ok made =>
    rw [writeFile_of_makeDirectories hname hmade] at h
    cases hwrite : made.write (Path.join p.directory name) (.text text) with
    | error fault =>
      rw [hwrite] at h
      cases h
    | ok written =>
      rw [hwrite] at h
      obtain rfl : written = after := congrArg Prod.fst h
      obtain ⟨location, hready, hentry, hafter⟩ := FileTree.ready_of_write_join hname hwrite
      exact ⟨made, location, rfl, hready, hentry, hafter⟩

/-- The publisher once a name in its directory was published. -/
def taking (p : Publisher) (name : String) : Publisher :=
  { p with published := (Path.components p.directory ++ [.name name]) :: p.published }

/-- A name that was not published is compared with the file under it first. -/
lemma publish_of_new (hname : IsName name)
    (hnew : Path.components p.directory ++ [.name name] ∉ p.published) (text : String) :
    p.publish files (Path.join p.directory name) text =
      match files.isCurrent (Path.join p.directory name) text with
      | .error fault => ⟨p.taking name, files, .error (.file fault)⟩
      | .ok true => ⟨p.taking name, files, .ok .unchanged⟩
      | .ok false =>
        match (p.taking name).writeFile files (Path.join p.directory name) text with
        | (files, none) => ⟨p.taking name, files, .ok .written⟩
        | (files, some fault) => ⟨p.taking name, files, .error (.file fault)⟩ := by
  have hcontains : p.published.contains (Path.components p.directory ++ [.name name]) = false := by
    simpa using hnew
  unfold publish
  simp only [Path.components_join hname, hcontains, Bool.false_eq_true, if_false]
  rfl

/-- Publishing into a directory that is there leaves the name alone if it holds the text, and
writes the text otherwise. -/
theorem publish_of_ready (h : files.Ready p.directory location) (hname : IsName name)
    (hnew : Path.components p.directory ++ [.name name] ∉ p.published)
    (hentry : files.entry? (location ++ [name]) ≠ some .directory) (text : String) :
    p.publish files (Path.join p.directory name) text =
      if files.entry? (location ++ [name]) = some (.file (.text text)) then
        ⟨p.taking name, files, .ok .unchanged⟩
      else
        ⟨p.taking name, files.put (location ++ [name]) (.file (.text text)), .ok .written⟩ := by
  have hwrite : (p.taking name).writeFile files (Path.join p.directory name) text =
      (files.put (location ++ [name]) (.file (.text text)), none) :=
    writeFile_of_ready h hname hentry text
  rw [publish_of_new hname hnew, h.isCurrent_join hname]
  cases hplace : files.entry? (location ++ [name]) with
  | none => simp [hwrite]
  | some entry =>
    cases entry with
    | directory => exact absurd hplace hentry
    | file content =>
      by_cases hcontent : content = .text text
      · simp [hcontent]
      · have hdiffers : (content == .text text) = false := by simpa using hcontent
        simp [hdiffers, hcontent, hwrite]

/-- A text that is not there is written once the directory is made. -/
lemma publish_of_makeDirectories {made : FileTree} (hname : IsName name)
    (hnew : Path.components p.directory ++ [.name name] ∉ p.published)
    (hcurrent : files.isCurrent (Path.join p.directory name) text = .ok false)
    (hmade : files.makeDirectories [] (Path.components p.directory) = .ok made)
    (hready : made.Ready p.directory location)
    (hentry : made.entry? (location ++ [name]) ≠ some .directory) :
    p.publish files (Path.join p.directory name) text =
      ⟨p.taking name, made.put (location ++ [name]) (.file (.text text)), .ok .written⟩ := by
  have hmade' : files.makeDirectories [] (Path.components (p.taking name).directory) =
      .ok made := hmade
  have hwrite : (p.taking name).writeFile files (Path.join p.directory name) text =
      (made.put (location ++ [name]) (.file (.text text)), none) := by
    have hwritten := hready.write_join hname hentry (.text text)
    refine (writeFile_of_makeDirectories hname hmade').trans ?_
    change (match made.write (Path.join p.directory name) (.text text) with
      | .ok files => (files, none)
      | .error fault => (made, some fault)) = _
    rw [hwritten]
  rw [publish_of_new hname hnew, hcurrent]
  simp only [hwrite]

/-- Publishing into a directory that is not there fails, or the directory can be made and the text
was not there. -/
theorem publish_of_not_ready (h : ∀ location, ¬ files.Ready p.directory location)
    (hname : IsName name) (hnew : Path.components p.directory ++ [.name name] ∉ p.published)
    (text : String) :
    (∃ fault, (p.publish files (Path.join p.directory name) text).outcome =
        .error (.file fault)) ∨
      ∃ made location, files.makeDirectories [] (Path.components p.directory) = .ok made ∧
        made.Ready p.directory location ∧ made.entry? (location ++ [name]) ≠ some .directory ∧
        files.isCurrent (Path.join p.directory name) text = .ok false := by
  rw [publish_of_new hname hnew]
  rcases FileTree.isCurrent_of_not_ready h with hmissing | ⟨fault, hfault⟩
  · rw [(hmissing name text hname).1]
    rcases hwrite : (p.taking name).writeFile files (Path.join p.directory name) text with
      ⟨after, _ | fault⟩
    · obtain ⟨made, location, hmade, hready, hentry, rfl⟩ :=
        ready_of_writeFile (p := p.taking name) hname hwrite
      exact Or.inr ⟨made, location, hmade, hready, hentry, rfl⟩
    · exact Or.inl ⟨fault, rfl⟩
  · rw [hfault name text hname]
    exact Or.inl ⟨fault, rfl⟩

end Publisher

end SchemaCompiler
