import SchemaCompiler.Proofs.Publisher

/-!
# Publishing documents in turn

What one publisher does with documents that come one after another, whatever their names are and
whatever the files hold at first (`Publisher.emits_in_turn`).  Publishing a text has four ends
(`Publisher.Ending`), and each of them says what the files hold afterwards.  Which end it is depends
on the paths that were taken.  These are the paths of the earlier documents that are schemas
(`Publisher.mem_published_after`): a document that is none takes no path.

Paths are compared by their components.  Two of them can lead to one file where `..` stands in them.
-/

namespace SchemaCompiler

open SchemaCompiler.Path (Component)

/-! ### Reading and writing one path -/

namespace FileTree

variable {files after made : FileTree} {location : Location} {path text : String}
  {content : Content}

/-- Two trees have the same files, except at one location. -/
def SameFilesBut (location : Location) (files after : FileTree) : Prop :=
  ∀ other ≠ location, ∀ content,
    after.entry? other = some (.file content) ↔ files.entry? other = some (.file content)

/-- Two trees have the same files; their directories may differ. -/
def SameFiles (files after : FileTree) : Prop :=
  ∀ location content,
    after.entry? location = some (.file content) ↔ files.entry? location = some (.file content)

/-- Making directories leaves the files alone. -/
lemma sameFiles_of_makeDirectories {rest : List Component}
    (h : files.makeDirectories location rest = .ok made) : SameFiles files made := by
  intro other content
  rcases entry?_of_makeDirectories h other with hsame | ⟨hbefore, hafter⟩
  · rw [hsame]
  · rw [hbefore, hafter]
    exact iff_of_false nofun nofun

/-- What is put at a location is the only change. -/
lemma sameFilesBut_put (files : FileTree) (location : Location) (content : Content) :
    SameFilesBut location files (files.put location (.file content)) := by
  intro other hne content'
  rw [entry?_put_of_ne hne]

/-- A path reads a content exactly when it leads to a file of that content. -/
lemma read_eq_ok_iff : files.read path = .ok content ↔ namesDirectory path = false ∧
    ∃ location, files.locate path = .ok location ∧
      files.entry? location = some (.file content) := by
  unfold read find
  cases hlocate : files.locate path with
  | error fault => exact iff_of_false nofun fun ⟨_, _, hlocation, _⟩ => nomatch hlocation
  | ok location =>
    cases hentry : files.entry? location with
    | none =>
      simp [bind, Except.bind, hentry, throw, throwThe, MonadExceptOf.throw]
    | some entry =>
      cases entry <;> cases namesDirectory path <;>
        simp [bind, Except.bind, hentry, throw, throwThe, MonadExceptOf.throw, pure, Except.pure]

/-- A file is current exactly when it reads the text. -/
lemma isCurrent_eq_true_iff :
    files.isCurrent path text = .ok true ↔ files.read path = .ok (.text text) := by
  unfold isCurrent
  split
  · next content hread => simp [hread]
  · next hread => simp [hread]
  · next fault _ hread => simp [hread]

/-- A write puts a file where its path leads to. -/
lemma exists_put_of_write (h : files.write path content = .ok after) :
    ∃ location, files.locate path = .ok location ∧ files.entry? location ≠ some .directory ∧
      namesDirectory path = false ∧ after = files.put location (.file content) := by
  obtain ⟨location, hlocate, h⟩ := bind_eq_ok_iff.mp h
  refine ⟨location, hlocate, ?_⟩
  split at h
  · cases h
  · next hentry =>
    obtain ⟨hname, h⟩ := unless_eq_ok_iff.mp h
    rw [hentry]
    exact ⟨nofun, Bool.eq_false_iff.mpr hname, (pure_eq_ok_iff.mp h).symm⟩
  · next hentry =>
    obtain ⟨hname, h⟩ := unless_eq_ok_iff.mp h
    obtain ⟨_, -, h⟩ := bind_eq_ok_iff.mp h
    rw [hentry]
    exact ⟨nofun, Bool.eq_false_iff.mpr hname, (pure_eq_ok_iff.mp h).symm⟩

/-- A path that was written leads to the content, and no other file changed. -/
lemma read_of_write (h : files.write path content = .ok after) :
    after.read path = .ok content ∧
      ∃ location, after.locate path = .ok location ∧ SameFilesBut location files after := by
  obtain ⟨location, hlocate, hentry, hname, rfl⟩ := exists_put_of_write h
  have hkept : ∀ other, files.entry? other = some .directory →
      FileTree.entry? (files.put location (.file content)) other = some .directory := by
    intro other hother
    have hne : other ≠ location := by
      rintro rfl
      exact hentry hother
    rw [entry?_put_of_ne hne, hother]
  have hlocate' : FileTree.locate (files.put location (.file content)) path = .ok location := by
    unfold locate at hlocate ⊢
    split at hlocate
    · cases hlocate
    · next hempty =>
      rw [if_neg hempty]
      exact walk_of_directories hkept hlocate
  exact ⟨read_eq_ok_iff.mpr ⟨hname, location, hlocate', entry?_put_self hentry⟩,
    location, hlocate', sameFilesBut_put files location content⟩

end FileTree

namespace Publisher

open FileTree (SameFiles SameFilesBut)

variable {p : Publisher} {files : FileTree} {d : Document}

/-! ### Publishing one text -/

/-- Writing a file leaves the text in it and all other files as they were, or fails and leaves all
files as they were. -/
lemma writeFile_cases (p : Publisher) (files : FileTree) (path text : String) :
    (∃ after location, p.writeFile files path text = (after, none) ∧
      after.read path = .ok (.text text) ∧ after.locate path = .ok location ∧
      SameFilesBut location files after) ∨
    ∃ after fault, p.writeFile files path text = (after, some fault) ∧ SameFiles files after := by
  unfold writeFile
  dsimp only
  generalize (if path.isEmpty then Path.components p.directory
    else (Path.components path).dropLast) = directory
  cases hmade : files.makeDirectories [] directory with
  | error fault => exact Or.inr ⟨files, fault, rfl, fun _ _ => Iff.rfl⟩
  | ok made =>
    have hsame := FileTree.sameFiles_of_makeDirectories hmade
    dsimp only
    cases hwrite : made.write path (.text text) with
    | error fault => exact Or.inr ⟨made, fault, rfl, hsame⟩
    | ok after =>
      obtain ⟨hread, location, hlocate, hothers⟩ := FileTree.read_of_write hwrite
      refine Or.inl ⟨after, location, rfl, hread, hlocate, fun other hne content => ?_⟩
      rw [hothers other hne content]
      exact hsame other content

/-- The publisher once a path is taken. -/
def marking (p : Publisher) (path : String) : Publisher :=
  { p with published := Path.components path :: p.published }

/-- The ends that publishing a text at a path can have, and what the files hold then. -/
inductive Ending (p : Publisher) (files : FileTree) (path text : String) : Publication → Prop
  /-- The path was taken before. -/
  | conflicting (taken : Path.components path ∈ p.published) :
      Ending p files path text ⟨p, files, .error (.conflictingOutput path)⟩
  /-- The files cannot be read or written. -/
  | faulty (free : Path.components path ∉ p.published) (fault : FileFault) (after : FileTree)
      (differs : files.read path ≠ .ok (.text text)) (same : SameFiles files after) :
      Ending p files path text ⟨p.marking path, after, .error (.file fault)⟩
  /-- The path leads to the text already. -/
  | unchanged (free : Path.components path ∉ p.published)
      (held : files.read path = .ok (.text text)) :
      Ending p files path text ⟨p.marking path, files, .ok .unchanged⟩
  /-- The path leads to the text afterwards. -/
  | written (free : Path.components path ∉ p.published)
      (differs : files.read path ≠ .ok (.text text)) (after : FileTree)
      (held : after.read path = .ok (.text text)) (location : Location)
      (leads : after.locate path = .ok location) (same : SameFilesBut location files after) :
      Ending p files path text ⟨p.marking path, after, .ok .written⟩

/-- Publishing a text has one of these ends. -/
lemma publish_ending (p : Publisher) (files : FileTree) (path text : String) :
    Ending p files path text (p.publish files path text) := by
  have hmarking : (⟨p.directory, Path.components path :: p.published⟩ : Publisher) =
      p.marking path := rfl
  have hcurrent : files.isCurrent path text = .ok true ↔ files.read path = .ok (.text text) :=
    FileTree.isCurrent_eq_true_iff
  unfold publish
  dsimp only
  rw [hmarking]
  split
  · next htaken => exact .conflicting (by simpa using htaken)
  · next hfree =>
    replace hfree : Path.components path ∉ p.published := by simpa using hfree
    split
    · next fault heq =>
      have hdiffers := hcurrent.not.mp (heq ▸ nofun)
      exact .faulty hfree fault files hdiffers fun _ _ => Iff.rfl
    · next heq => exact .unchanged hfree (hcurrent.mp heq)
    · next heq =>
      have hdiffers := hcurrent.not.mp (heq ▸ nofun)
      rcases (p.marking path).writeFile_cases files path text with
        ⟨after, location, hwrite, hheld, hleads, hsame⟩ | ⟨after, fault, hwrite, hsame⟩
      · rw [hwrite]
        exact .written hfree hdiffers after hheld location hleads hsame
      · rw [hwrite]
        exact .faulty hfree fault after hdiffers hsame

namespace Ending

variable {path text : String} {next : Publication} {outcome : WriteOutcome}

/-- The publisher keeps its directory. -/
lemma directory_eq (h : Ending p files path text next) :
    next.publisher.directory = p.directory := by
  cases h <;> rfl

/-- The path is taken afterwards, and no other path that was free before. -/
lemma mem_published_iff (h : Ending p files path text next) {place : List Component} :
    place ∈ next.publisher.published ↔ place ∈ p.published ∨ Path.components path = place := by
  cases h with
  | conflicting htaken =>
    refine ⟨Or.inl, ?_⟩
    rintro (h | rfl)
    · exact h
    · exact htaken
  | faulty | unchanged | written => simp [marking, or_comm, eq_comm]

/-- The text is not checked. -/
lemma ne_selfValidation (h : Ending p files path text next) (name : String)
    (invalidity : Invalidity) : next.outcome ≠ .error (.selfValidation name invalidity) := by
  cases h <;> exact nofun

/-- There is a conflict exactly if the path was taken. -/
lemma conflicting_iff (h : Ending p files path text next) :
    (∃ path, next.outcome = .error (.conflictingOutput path)) ↔
      Path.components path ∈ p.published := by
  cases h with
  | conflicting htaken => exact iff_of_true ⟨_, rfl⟩ htaken
  | faulty hfree | unchanged hfree | written hfree => exact iff_of_false nofun hfree

/-- A conflict changes nothing. -/
lemma files_eq {other : String} (h : Ending p files path text next)
    (hconflict : next.outcome = .error (.conflictingOutput other)) : next.files = files := by
  cases h with
  | conflicting => rfl
  | faulty | unchanged | written => cases hconflict

/-- A text with a free path is published, unless the files cannot be read or written. -/
lemma exists_outcome (h : Ending p files path text next)
    (hfree : Path.components path ∉ p.published)
    (hfiles : ∀ fault, next.outcome ≠ .error (.file fault)) :
    ∃ outcome, next.outcome = .ok outcome := by
  cases h with
  | conflicting htaken => exact absurd htaken hfree
  | faulty _ fault => exact absurd rfl (hfiles fault)
  | unchanged | written => exact ⟨_, rfl⟩

/-- The path of a published text leads to it. -/
lemma read_eq (h : Ending p files path text next) (hok : next.outcome = .ok outcome) :
    next.files.read path = .ok (.text text) := by
  cases h with
  | conflicting | faulty => cases hok
  | unchanged _ hheld => exact hheld
  | written _ _ _ hheld => exact hheld

/-- A published text is not written exactly if its path led to it before. -/
lemma unchanged_iff (h : Ending p files path text next) (hok : next.outcome = .ok outcome) :
    outcome = .unchanged ↔ files.read path = .ok (.text text) := by
  cases h with
  | conflicting | faulty => cases hok
  | unchanged _ hheld => exact iff_of_true (Except.ok.inj hok).symm hheld
  | written _ hdiffers =>
    obtain rfl := Except.ok.inj hok
    exact iff_of_false nofun hdiffers

/-- A text that is written had a free path, which leads to the only file that changes. -/
lemma of_written (h : Ending p files path text next) (hwritten : next.outcome = .ok .written) :
    Path.components path ∉ p.published ∧
      ∃ location, next.files.locate path = .ok location ∧
        SameFilesBut location files next.files := by
  cases h with
  | conflicting | faulty | unchanged => cases hwritten
  | written hfree _ after _ location hleads hothers => exact ⟨hfree, location, hleads, hothers⟩

/-- A text that is not written changes no file. -/
lemma sameFiles (h : Ending p files path text next) (hkept : next.outcome ≠ .ok .written) :
    SameFiles files next.files := by
  cases h with
  | conflicting | unchanged => exact fun _ _ => Iff.rfl
  | faulty _ _ _ _ hsame => exact hsame
  | written => exact absurd rfl hkept

end Ending

/-! ### Emitting one document -/

/-- The path of a document as a publisher compares it. -/
def place (p : Publisher) (d : Document) : List Component := Path.components (p.pathFor d)

/-- A document that is no schema has no effect. -/
lemma emit_of_invalid {failure : Failure} (h : d.check = .error failure) :
    p.emit files d = ⟨p, files, .error failure⟩ := by
  rw [emit, h]

/-- A document that is a schema is published. -/
lemma emit_ending (p : Publisher) (files : FileTree) (h : d.check = .ok ()) :
    Ending p files (p.pathFor d) d.render (p.emit files d) := by
  rw [emit, h]
  exact publish_ending p files (p.pathFor d) d.render

/-- A document is refused only for what is wrong with it. -/
lemma exists_invalidity {failure : Failure} (h : d.check = .error failure) :
    ∃ invalidity, failure = .selfValidation d.schemaName invalidity := by
  unfold Document.check Validation.check at h
  split at h
  · cases h
  · next invalidity _ => exact ⟨invalidity, (Except.error.inj h).symm⟩

/-- A publisher keeps its directory. -/
lemma directory_emit (p : Publisher) (files : FileTree) (d : Document) :
    (p.emit files d).publisher.directory = p.directory := by
  cases hcheck : d.check with
  | error failure => rw [emit_of_invalid hcheck]
  | ok _ => exact (p.emit_ending files hcheck).directory_eq

/-- The path of a document stays the same. -/
lemma place_emit (p : Publisher) (files : FileTree) (d other : Document) :
    (p.emit files d).publisher.place other = p.place other := by
  unfold place pathFor
  rw [directory_emit]

/-- The paths that are taken after a document are those before it and its own, if it is a schema. -/
lemma mem_published_emit {place : List Component} :
    place ∈ (p.emit files d).publisher.published ↔
      place ∈ p.published ∨ d.check = .ok () ∧ p.place d = place := by
  cases hcheck : d.check with
  | error failure => simp [emit_of_invalid hcheck]
  | ok _ =>
    rw [(p.emit_ending files hcheck).mem_published_iff]
    simp [Publisher.place]

/-! ### Emitting documents in turn -/

/-- A publisher and files after documents were emitted in turn. -/
def after (p : Publisher) (files : FileTree) : List Document → Publisher × FileTree
  | [] => (p, files)
  | d :: rest => (p.emit files d).publisher.after (p.emit files d).files rest

/-- The paths that are written while documents are emitted in turn. -/
def written (p : Publisher) (files : FileTree) : List Document → List (List Component)
  | [] => []
  | d :: rest =>
    let next := p.emit files d
    let later := next.publisher.written next.files rest
    match next.outcome with
    | .ok .written => p.place d :: later
    | .ok .unchanged | .error _ => later

/-- A publisher keeps its directory. -/
lemma directory_after (p : Publisher) (files : FileTree) (earlier : List Document) :
    (p.after files earlier).1.directory = p.directory := by
  induction earlier generalizing p files with
  | nil => rfl
  | cons e earlier ih => rw [after, ih, directory_emit]

/-- The path of a document stays the same. -/
lemma place_after (p : Publisher) (files : FileTree) (earlier : List Document) (d : Document) :
    (p.after files earlier).1.place d = p.place d := by
  unfold place pathFor
  rw [directory_after]

/-- The paths that are taken after documents are those before them and those of the schemas. -/
lemma mem_published_after {place : List Component} {earlier : List Document} :
    place ∈ (p.after files earlier).1.published ↔
      place ∈ p.published ∨ ∃ e ∈ earlier, e.check = .ok () ∧ p.place e = place := by
  induction earlier generalizing p files with
  | nil => simp [after]
  | cons e earlier ih =>
    simp only [after, ih, mem_published_emit, place_emit, List.exists_mem_cons_iff, or_assoc]

/-- A document that is written has a free path, and takes it. -/
lemma free_of_written (h : (p.emit files d).outcome = .ok .written) :
    p.place d ∉ p.published ∧ p.place d ∈ (p.emit files d).publisher.published := by
  cases hcheck : d.check with
  | error failure =>
    rw [emit_of_invalid hcheck] at h
    cases h
  | ok _ =>
    have hfree := ((p.emit_ending files hcheck).of_written h).1
    exact ⟨hfree, mem_published_emit.mpr (Or.inr ⟨hcheck, rfl⟩)⟩

/-- A path that was taken is not written. -/
lemma not_mem_written {place : List Component} {documents : List Document}
    (h : place ∈ p.published) : place ∉ p.written files documents := by
  induction documents generalizing p files with
  | nil => exact List.not_mem_nil
  | cons d rest ih =>
    have hmem : place ∈ (p.emit files d).publisher.published :=
      mem_published_emit.mpr (Or.inl h)
    have hrest : place ∉ (p.emit files d).publisher.written (p.emit files d).files rest := ih hmem
    unfold written
    dsimp only
    split
    · next hwritten =>
      have hne : place ≠ p.place d := by
        rintro rfl
        exact (free_of_written hwritten).1 h
      exact List.not_mem_cons_of_ne_of_not_mem hne hrest
    · exact hrest
    · exact hrest

/-- No path is written twice. -/
lemma nodup_written (p : Publisher) (files : FileTree) (documents : List Document) :
    (p.written files documents).Nodup := by
  induction documents generalizing p files with
  | nil => exact List.nodup_nil
  | cons d rest ih =>
    unfold written
    dsimp only
    split
    · next hwritten =>
      exact List.nodup_cons.mpr ⟨not_mem_written (free_of_written hwritten).2, ih _ _⟩
    · exact ih _ _
    · exact ih _ _

/-- What comes of a document that a publisher emits after earlier ones. -/
structure Emits (p : Publisher) (files : FileTree) (earlier : List Document) (d : Document)
    (next : Publication) : Prop where
  /-- A document fails its own check exactly if it is no schema. -/
  invalid : (∃ name invalidity, next.outcome = .error (.selfValidation name invalidity)) ↔
    d.check ≠ .ok ()
  /-- A document that is no schema changes nothing and takes no path. -/
  refused : d.check ≠ .ok () → next.publisher = p ∧ next.files = files
  /-- The output conflicts exactly if the path is that of an earlier schema. -/
  conflicting : (∃ path, next.outcome = .error (.conflictingOutput path)) ↔
    d.check = .ok () ∧ ∃ e ∈ earlier, e.check = .ok () ∧ p.place e = p.place d
  /-- A conflict changes nothing. -/
  kept : ∀ path, next.outcome = .error (.conflictingOutput path) → next.files = files
  /-- Any other schema is published, unless the files cannot be read or written. -/
  published : d.check = .ok () → (∀ e ∈ earlier, e.check = .ok () → p.place e ≠ p.place d) →
    (∀ fault, next.outcome ≠ .error (.file fault)) → ∃ outcome, next.outcome = .ok outcome
  /-- The path of a published document leads to its text. -/
  holds : ∀ outcome, next.outcome = .ok outcome →
    next.files.read (p.pathFor d) = .ok (.text d.render)
  /-- A published document is left alone exactly if its path led to its text before. -/
  unchanged : ∀ outcome, next.outcome = .ok outcome →
    (outcome = .unchanged ↔ files.read (p.pathFor d) = .ok (.text d.render))
  /-- If a document is written, the file that its path leads to is the only one that changes. -/
  only : next.outcome = .ok .written →
    ∃ location, next.files.locate (p.pathFor d) = .ok location ∧
      SameFilesBut location files next.files
  /-- If no document is written, no file changes. -/
  same : next.outcome ≠ .ok .written → SameFiles files next.files

/-- What comes of a document that is no schema. -/
lemma emits_of_invalid {earlier : List Document} (h : d.check ≠ .ok ()) :
    Emits p files earlier d (p.emit files d) := by
  cases hcheck : d.check with
  | ok _ => exact absurd hcheck h
  | error failure =>
    obtain ⟨invalidity, rfl⟩ := exists_invalidity hcheck
    rw [emit_of_invalid hcheck]
    exact {
      invalid := iff_of_true ⟨_, _, rfl⟩ h
      refused := fun _ => ⟨rfl, rfl⟩
      conflicting := iff_of_false nofun fun hvalid => h hvalid.1
      kept := nofun
      published := fun hvalid => absurd hvalid h
      holds := nofun
      unchanged := nofun
      only := nofun
      same := fun _ _ _ => Iff.rfl }

/-- What comes of a schema, if its path was taken by earlier schemas alone. -/
lemma emits_of_valid {earlier : List Document} (h : d.check = .ok ())
    (htaken : p.place d ∈ p.published ↔
      ∃ e ∈ earlier, e.check = .ok () ∧ p.place e = p.place d) :
    Emits p files earlier d (p.emit files d) := by
  have hending := p.emit_ending files h
  exact {
    invalid := iff_of_false (fun ⟨name, invalidity, hinvalid⟩ =>
      hending.ne_selfValidation name invalidity hinvalid) (not_not.mpr h)
    refused := fun hinvalid => absurd h hinvalid
    conflicting := by rw [hending.conflicting_iff, and_iff_right h, ← htaken, place]
    kept := fun _ hconflict => hending.files_eq hconflict
    published := by
      intro _ hnone hfiles
      refine hending.exists_outcome (fun hplace => ?_) hfiles
      obtain ⟨e, hmem, hschema, hsame⟩ := htaken.mp hplace
      exact hnone e hmem hschema hsame
    holds := fun _ hok => hending.read_eq hok
    unchanged := fun _ hok => hending.unchanged_iff hok
    only := fun hwritten => (hending.of_written hwritten).2
    same := hending.sameFiles }

/-- A publisher that emits documents in turn writes no path twice.  Each document is refused, in
conflict or published by what it is and which schemas came before it. -/
theorem emits_in_turn (output location : String) (files : FileTree) (earlier : List Document) :
    ((into output location).written files earlier).Nodup ∧
    ∀ d : Document,
      let before := (into output location).after files earlier
      Emits before.1 before.2 earlier d (before.1.emit before.2 d) := by
  refine ⟨nodup_written _ files earlier, fun d => ?_⟩
  by_cases hcheck : d.check = .ok ()
  · refine emits_of_valid hcheck ?_
    rw [mem_published_after]
    simp only [place_after]
    exact or_iff_right List.not_mem_nil
  · exact emits_of_invalid hcheck

/-- A document that is called like the schema of labels, but refers to nothing. -/
def danglingLabel : Document where
  schemaName := "Label"
  id := ⟨"https://example.com/Label.schema.json"⟩
  draft := .draft202012
  root := .ref ⟨"nowhere"⟩ {}
  definitions := []

/-- The schema of labels, which are any objects. -/
def label : Document := { danglingLabel with root := .object true [] [] [] none {} }

/-- A document that is no schema is refused and leaves its path to the schema that comes after it.
That schema is in conflict when it comes again. -/
theorem emits_label :
    let p := into "" "schemas"
    let emission (earlier : List Document) (d : Document) : Publication :=
      (p.after {} earlier).1.emit (p.after {} earlier).2 d
    (∃ name invalidity,
      (emission [] danglingLabel).outcome = .error (.selfValidation name invalidity)) ∧
    (emission [danglingLabel] label).outcome = .ok .written ∧
    (emission [danglingLabel] label).files.read (p.pathFor label) = .ok (.text label.render) ∧
    (∃ path, (emission [danglingLabel, label] label).outcome =
      .error (.conflictingOutput path)) ∧
    (p.written {} [danglingLabel, label, label]).Nodup := by
  have hinvalid : danglingLabel.check =
      .error (.selfValidation "Label" (.danglingReference "nowhere")) := rfl
  have hvalid : label.check = .ok () := rfl
  have hwritten : let before := (into "" "schemas").after {} [danglingLabel]
      (before.1.emit before.2 label).outcome = .ok .written := rfl
  have hfirst := (emits_in_turn "" "schemas" {} []).2 danglingLabel
  have hsecond := (emits_in_turn "" "schemas" {} [danglingLabel]).2 label
  have hthird := (emits_in_turn "" "schemas" {} [danglingLabel, label]).2 label
  have hread := hsecond.holds .written hwritten
  rw [pathFor, directory_after] at hread
  refine ⟨hfirst.invalid.mpr (hinvalid ▸ nofun), hwritten, hread, ?_,
    (emits_in_turn "" "schemas" {} _).1⟩
  exact hthird.conflicting.mpr ⟨hvalid, label, by simp, hvalid, rfl⟩

end Publisher

end SchemaCompiler
