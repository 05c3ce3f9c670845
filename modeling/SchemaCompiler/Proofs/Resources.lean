import SchemaCompiler.Proofs.Publisher
import SchemaCompiler.Proofs.SchemaName
import SchemaCompiler.Resources

/-!
# Published schemas are found by their names

A look-up reads one file of its directory, or none at all for a name that could lead out of it
(`Resources.get_eq`).  A document that was published in the directory is found under its file name,
and under its schema name as well, unless this ends in the suffix of schema files.  A name with the
suffix is taken for the name of a file, so it shares the file of the schema that is called like it
without the suffix (`Resources.finds_published`, `Resources.suffixed_not_found`).
-/

namespace SchemaCompiler

open SchemaName (HasSuffix)

namespace Publisher

variable {p : Publisher} {files : FileTree} {name text : String} {outcome : WriteOutcome}

/-- A text that was published stands in its file. -/
theorem read_of_publish (hname : Path.IsName name)
    (h : (p.publish files (Path.join p.directory name) text).outcome = .ok outcome) :
    (p.publish files (Path.join p.directory name) text).files.read (Path.join p.directory name) =
      .ok (.text text) := by
  by_cases hnew : Path.components p.directory ++ [.name name] ∈ p.published
  · have hcontains :
        p.published.contains (Path.components p.directory ++ [.name name]) = true := by
      simpa using hnew
    rw [publish, Path.components_join hname] at h
    simp only [hcontains, if_true] at h
    cases h
  · rw [publish_of_new hname hnew] at h ⊢
    split at h
    · cases h
    · next hcurrent =>
      -- The file held the text before.
      unfold FileTree.isCurrent at hcurrent
      split at hcurrent
      · next content hread =>
        rw [hread, beq_iff_eq.mp (Except.ok.inj hcurrent)]
      · cases hcurrent
      · cases hcurrent
    · split at h
      · next after hwrite =>
        obtain ⟨made, location, -, hready, hentry, rfl⟩ := ready_of_writeFile hname hwrite
        have hheld : FileTree.entry? (made.put (location ++ [name]) (.file (.text text)))
            (location ++ [name]) = some (.file (.text text)) := FileTree.entry?_put_self hentry
        have hready : FileTree.Ready (made.put (location ++ [name]) (.file (.text text)))
            p.directory location := hready.put hentry
        have hfind := hready.find_join hname
        rw [hheld] at hfind
        exact congrArg (· >>= _) hfind
      · cases h

/-- A document that was emitted stands in its file. -/
theorem read_of_emit {d : Document} (hvalid : SchemaName.isValid d.schemaName = true)
    (h : (p.emit files d).outcome = .ok outcome) :
    (p.emit files d).files.read (p.pathFor d) = .ok (.text d.render) := by
  unfold emit at h ⊢
  split at h
  · cases h
  · exact read_of_publish (SchemaName.isName_fileName hvalid) h

end Publisher

namespace Resources

variable {name other : String} {files : FileTree} {root : String}

/-! ### Files of names -/

/-- A name with the suffix is the name of its file. -/
lemma fileName_of_hasSuffix (h : HasSuffix name) : fileName name = name := by
  have hsuffix : SchemaName.fileSuffix.toList.isSuffixOf name.toList = true :=
    List.isSuffixOf_iff_suffix.mpr h
  rw [fileName, if_pos hsuffix]

/-- A name without the suffix gets it. -/
lemma fileName_of_not_hasSuffix (h : ¬ HasSuffix name) :
    fileName name = SchemaName.fileName name := by
  have hsuffix : ¬ SchemaName.fileSuffix.toList.isSuffixOf name.toList = true :=
    fun hsuffix => h (List.isSuffixOf_iff_suffix.mp hsuffix)
  rw [fileName, if_neg hsuffix]
  rfl

/-- The file of a published schema is the file of its own name. -/
lemma fileName_fileName (name : String) :
    fileName (SchemaName.fileName name) = SchemaName.fileName name :=
  fileName_of_hasSuffix (SchemaName.hasSuffix_fileName name)

/-- Two names share a file if they are equal, or one of them is the other with the suffix. -/
theorem fileName_eq_iff : fileName name = fileName other ↔ name = other ∨
    (¬ HasSuffix name ∧ other = SchemaName.fileName name) ∨
      (¬ HasSuffix other ∧ name = SchemaName.fileName other) := by
  constructor
  · intro h
    by_cases hname : HasSuffix name <;> by_cases hother : HasSuffix other
    · rw [fileName_of_hasSuffix hname, fileName_of_hasSuffix hother] at h
      exact Or.inl h
    · rw [fileName_of_hasSuffix hname, fileName_of_not_hasSuffix hother] at h
      exact Or.inr (Or.inr ⟨hother, h⟩)
    · rw [fileName_of_not_hasSuffix hname, fileName_of_hasSuffix hother] at h
      exact Or.inr (Or.inl ⟨hname, h.symm⟩)
    · rw [fileName_of_not_hasSuffix hname, fileName_of_not_hasSuffix hother] at h
      exact Or.inl (SchemaName.fileName_injective h)
  · rintro (rfl | ⟨hname, rfl⟩ | ⟨hother, rfl⟩)
    · rfl
    · rw [fileName_fileName, fileName_of_not_hasSuffix hname]
    · rw [fileName_fileName, fileName_of_not_hasSuffix hother]

/-! ### Look-ups -/

/-- There is no slash in a name that cannot lead out of a directory. -/
lemma slash_not_mem_of_escapes (h : escapes name = false) : '/' ∉ name.toList := by
  unfold escapes at h
  split at h
  · cases h
  · cases h
  · simp only [Bool.or_eq_false_iff] at h
    simpa using h.1

/-- The file of a name that cannot lead out of a directory has a proper name. -/
lemma isName_fileName (h : escapes name = false) : Path.IsName (fileName name) := by
  have hslash := slash_not_mem_of_escapes h
  by_cases hname : HasSuffix name
  · rw [fileName_of_hasSuffix hname]
    exact hname.isName hslash
  · rw [fileName_of_not_hasSuffix hname]
    exact (SchemaName.hasSuffix_fileName name).isName
      fun hmem => hslash (SchemaName.slash_mem_fileName.mp hmem)

/-- What is read of a file: its text, and nothing where there is no file. -/
def textOf : Except FileFault Content → Except FileFault (Option String)
  | .ok content => some <$> content.text?
  | .error .notFound => .ok none
  | .error fault => .error fault

/-- A look-up reads the file of its name, unless this could lead out of the directory. -/
lemma get_eq (files : FileTree) (root : String) (h : escapes name = false) :
    get files root name = textOf (files.read (Path.join root (fileName name))) := by
  unfold get
  rw [h, if_neg Bool.false_ne_true]
  cases hread : files.read (Path.join root (fileName name)) with
  | ok content => rfl
  | error fault => cases fault <;> rfl

/-- A name that could lead out of the directory is not found, whatever the files are. -/
lemma get_of_escapes (files : FileTree) (root : String) (h : escapes name = true) :
    get files root name = .ok none := by
  rw [get, if_pos h]

/-- A text that begins with another character than a point and has no slash of either kind in it
cannot lead out of a directory. -/
lemma escapes_eq_false {first : Char} {rest : List Char} (hchars : name.toList = first :: rest)
    (hfirst : first ≠ '.') (hslash : '/' ∉ name.toList) (hback : '\\' ∉ name.toList) :
    escapes name = false := by
  rw [hchars] at hslash hback
  unfold escapes
  rw [hchars]
  split
  · next heq => cases heq
  · next heq => exact absurd (List.cons.inj heq).1 hfirst
  · simp only [Bool.or_eq_false_iff]
    exact ⟨by simpa using hslash, by simpa using hback⟩

/-- Neither a schema name nor the name of its file can lead out of a directory. -/
lemma escapes_of_isValid (h : SchemaName.isValid name = true) :
    escapes name = false ∧ escapes (SchemaName.fileName name) = false := by
  have hallowed := SchemaName.allows_of_isValid h
  have hslash : '/' ∉ name.toList := fun hmem => absurd (hallowed _ hmem) (by decide)
  have hback : '\\' ∉ name.toList := fun hmem => absurd (hallowed _ hmem) (by decide)
  cases hchars : name.toList with
  | nil => simp [SchemaName.isValid, hchars] at h
  | cons first rest =>
    have hfirst : first ≠ '.' := by
      rintro rfl
      simp [SchemaName.isValid, hchars] at h
    have hfile : (SchemaName.fileName name).toList =
        first :: (rest ++ SchemaName.fileSuffix.toList) := by
      rw [SchemaName.toList_fileName, hchars, List.cons_append]
    refine ⟨escapes_eq_false hchars hfirst hslash hback,
      escapes_eq_false hfile hfirst (mt SchemaName.slash_mem_fileName.mp hslash) ?_⟩
    rw [SchemaName.toList_fileName, List.mem_append, not_or]
    exact ⟨hback, by decide⟩

/-! ### Published schemas -/

/-- A published document is found under the name of its file, and under its schema name unless this
ends in the suffix of files.  Different schema names lead to one file only if one of them is the
other with the suffix. -/
theorem finds_published :
    (∀ (p : Publisher) (files : FileTree) (d : Document) (outcome : WriteOutcome),
      SchemaName.isValid d.schemaName = true → (p.emit files d).outcome = .ok outcome →
        get (p.emit files d).files p.directory d.fileName = .ok (some d.render) ∧
          (¬ HasSuffix d.schemaName →
            get (p.emit files d).files p.directory d.schemaName = .ok (some d.render))) ∧
    ∀ root name other : String, SchemaName.isValid name = true →
      SchemaName.isValid other = true → name ≠ other →
        (Path.components (Path.join root (fileName name)) =
            Path.components (Path.join root (fileName other)) ↔
          (¬ HasSuffix name ∧ other = SchemaName.fileName name) ∨
            (¬ HasSuffix other ∧ name = SchemaName.fileName other)) := by
  constructor
  · intro p files d outcome hvalid hok
    have hread := Publisher.read_of_emit hvalid hok
    obtain ⟨hname, hfile⟩ := escapes_of_isValid hvalid
    constructor
    · rw [Document.fileName, get_eq _ _ hfile, fileName_fileName]
      exact congrArg textOf hread
    · intro hsuffix
      rw [get_eq _ _ hname, fileName_of_not_hasSuffix hsuffix]
      exact congrArg textOf hread
  · intro root name other hname hother hne
    have hnames := isName_fileName (escapes_of_isValid hname).1
    have hothers := isName_fileName (escapes_of_isValid hother).1
    rw [Path.components_join hnames, Path.components_join hothers, List.append_right_inj,
      List.singleton_inj, Path.Component.name.injEq, fileName_eq_iff, or_iff_right hne]

/-- The schema of all objects under a name. -/
def plainDocument (schemaName : String) : Document where
  schemaName := schemaName
  id := ⟨"https://example.com/" ++ SchemaName.fileName schemaName⟩
  draft := .draft202012
  root := .object true [] [] [] none {}
  definitions := []

/-- The publisher of a directory that has nothing published yet. -/
def schemas : Publisher := ⟨"schemas", []⟩

/-- The schema of all objects is found under its name, which shares its file with the name of the
file, but with no other. -/
theorem label_found :
    (schemas.emit {} (plainDocument "Label")).outcome = .ok .written ∧
    get (schemas.emit {} (plainDocument "Label")).files "schemas" "Label" =
      .ok (some (plainDocument "Label").render) ∧
    Path.components (Path.join "schemas" (fileName "Label")) ≠
      Path.components (Path.join "schemas" (fileName "Tag")) := by
  have hok : (schemas.emit {} (plainDocument "Label")).outcome = .ok .written := rfl
  obtain ⟨hfinds, hfiles⟩ := finds_published
  have hfound := (hfinds schemas {} (plainDocument "Label") .written rfl hok).2
  refine ⟨hok, hfound (by decide), ?_⟩
  exact (hfiles "schemas" "Label" "Tag" rfl rfl (by decide)).not.mpr (by decide)

/-- A schema whose name has the suffix of files is not found under its name, which is the file of
another schema. -/
theorem suffixed_not_found :
    SchemaName.isValid "Label.schema.json" = true ∧ SchemaName.isValid "Label" = true ∧
    (schemas.emit {} (plainDocument "Label.schema.json")).outcome = .ok .written ∧
    get (schemas.emit {} (plainDocument "Label.schema.json")).files "schemas"
      "Label.schema.json" = .ok none ∧
    "Label.schema.json" ≠ "Label" ∧ fileName "Label.schema.json" = fileName "Label" :=
  ⟨rfl, rfl, rfl, rfl, by decide, rfl⟩

end Resources

end SchemaCompiler
