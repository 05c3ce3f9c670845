import SchemaCompiler.Proofs.Generator.SchemaNames
import SchemaCompiler.Proofs.Publisher

/-!
# Publishing and comparing

What one run does with documents that were checked.  Publishing goes on from result to result
with the files that it has left so far, comparing looks at the same files throughout.  Since no two
documents have the same file name, a file is as it was at the beginning when the turn of its
document comes, except for the directory, which the first document makes if it is not there.

`Generator.published_foldl` and `Generator.published_foldl_of_not_ready` say what publishing has
done in the end, and `Generator.compared_foldl` what comparing has found.
-/

namespace SchemaCompiler

open SchemaCompiler.Path (Component IsName)

/-! ### Checked documents -/

/-- The report with what came of publishing at a path. -/
def GenerationReport.add (report : GenerationReport) (root : TypeName) (path : String) :
    Except Failure WriteOutcome → GenerationReport
  | .ok .written => { report with written := report.written ++ [path] }
  | .ok .unchanged => { report with unchanged := report.unchanged ++ [path] }
  | .error failure => { report with failures := report.failures ++ [(root, failure)] }

/-- The report with what came of a comparison at a path; `present` says whether anything is there.
-/
def CheckReport.add (report : CheckReport) (root : TypeName) (path : String) (present : Bool) :
    Except FileFault Bool → CheckReport
  | .ok true => { report with current := report.current ++ [path] }
  | .ok false =>
    if present then { report with stale := report.stale ++ [path] }
    else { report with missing := report.missing ++ [path] }
  | .error fault => { report with failures := report.failures ++ [(root, .file fault)] }

namespace Generator

/-- The result of a root once its document was checked. -/
def checked (result : RootResult) : RootResult :=
  (result.1, result.2.bind fun d => d.check.map fun _ => d)

/-- Publishes a document that was checked. -/
def emitChecked (state : Emission) : RootResult → Emission
  | (root, .error failure) =>
    { state with
      report := { state.report with failures := state.report.failures ++ [(root, failure)] } }
  | (root, .ok d) =>
    let path := state.publisher.pathFor d
    let publication := state.publisher.publish state.files path d.render
    ⟨publication.publisher, publication.files,
      state.report.add root path publication.outcome⟩

/-- Compares a document that was checked with its file. -/
def compareChecked (publisher : Publisher) (files : FileTree) (report : CheckReport) :
    RootResult → CheckReport
  | (root, .error failure) => { report with failures := report.failures ++ [(root, failure)] }
  | (root, .ok d) =>
    let path := publisher.pathFor d
    report.add root path (files.hasEntry path) (files.isCurrent path d.render)

/-- A document is checked before anything else is done to publish it. -/
lemma emitRoot_eq (state : Emission) (result : RootResult) :
    emitRoot state result = emitChecked state (checked result) := by
  obtain ⟨root, failure | d⟩ := result
  · rfl
  · unfold emitRoot Publisher.emit checked
    cases hcheck : d.check with
    | error failure => simp only [emitChecked, Except.bind, hcheck, Except.map]
    | ok _ =>
      simp only [emitChecked, Except.bind, hcheck, Except.map]
      generalize state.publisher.publish state.files (state.publisher.pathFor d) d.render =
        publication
      obtain ⟨publisher, files, failure | outcome⟩ := publication
      · rfl
      · cases outcome <;> rfl

/-- A document is checked before anything else is done to compare it. -/
lemma checkRoot_eq (publisher : Publisher) (files : FileTree) (report : CheckReport)
    (result : RootResult) :
    checkRoot publisher files report result =
      compareChecked publisher files report (checked result) := by
  obtain ⟨root, failure | d⟩ := result
  · rfl
  · unfold checkRoot checked
    cases hcheck : d.check with
    | error failure => simp only [compareChecked, Except.bind, hcheck, Except.map]
    | ok _ =>
      simp only [compareChecked, Except.bind, hcheck, Except.map]
      generalize files.isCurrent (publisher.pathFor d) d.render = current
      obtain fault | _ | _ := current <;> rfl

/-- The documents among checked results. -/
def documentsOf (results : List RootResult) : List Document := results.filterMap (·.2.toOption)

/-- The failures among checked results. -/
def failuresOf (results : List RootResult) : List (TypeName × Failure) :=
  results.filterMap fun result =>
    match result with
    | (root, .error failure) => some (root, failure)
    | (_, .ok _) => none

variable {results rest : List RootResult} {root : TypeName} {d : Document} {failure : Failure}
  {state : Emission} {location : Location} {base : String}

/-- A failure is no document. -/
@[simp] lemma documentsOf_error :
    documentsOf ((root, .error failure) :: results) = documentsOf results := rfl

/-- A document is one. -/
@[simp] lemma documentsOf_ok : documentsOf ((root, .ok d) :: results) = d :: documentsOf results :=
  rfl

/-- A failure is one. -/
@[simp] lemma failuresOf_error :
    failuresOf ((root, .error failure) :: results) = (root, failure) :: failuresOf results := rfl

/-- A document is no failure. -/
@[simp] lemma failuresOf_ok : failuresOf ((root, .ok d) :: results) = failuresOf results := rfl

/-- The documents among checked results are those that roots have. -/
lemma mem_documentsOf : d ∈ documentsOf results ↔ ∃ root, (root, .ok d) ∈ results := by
  induction results with
  | nil => simp [documentsOf]
  | cons result rest ih =>
    obtain ⟨root, failure | d'⟩ := result
    · rw [documentsOf_error, ih]
      simp
    · rw [documentsOf_ok, List.mem_cons, ih]
      simp [exists_or]

/-! ### Publishing into a directory that is there -/

/-- Whether a file in a directory holds exactly a document. -/
def shows (files : FileTree) (location : Location) (d : Document) : Bool :=
  files.entry? (location ++ [d.fileName]) = some (.file (.text d.render))

/-- Documents that can be published: their files have distinct names, none of which was published
before. -/
structure Publishable (publisher : Publisher) (documents : List Document) : Prop where
  isName : ∀ d ∈ documents, IsName d.fileName
  distinct : (documents.map (·.fileName)).Nodup
  new : ∀ d ∈ documents,
    Path.components publisher.directory ++ [.name d.fileName] ∉ publisher.published

/-- The file names of the other documents are not that of the first one. -/
lemma Publishable.fileName_ne {publisher : Publisher} {documents : List Document}
    (h : Publishable publisher (d :: documents)) : ∀ d' ∈ documents, d'.fileName ≠ d.fileName := by
  intro d' hd' heq
  have hmem : d'.fileName ∈ documents.map (·.fileName) := List.mem_map_of_mem hd'
  rw [heq] at hmem
  exact (List.nodup_cons.mp h.distinct).1 hmem

/-- Once the first document is published, the others can be. -/
lemma Publishable.tail {publisher : Publisher} {documents : List Document}
    (h : Publishable publisher (d :: documents)) :
    Publishable (publisher.taking d.fileName) documents where
  isName := fun d' hd' => h.isName d' (List.mem_cons_of_mem _ hd')
  distinct := (List.nodup_cons.mp h.distinct).2
  new := by
    intro d' hd' hmem
    rcases List.mem_cons.mp hmem with heq | hmem
    · have hsame : Component.name d'.fileName = .name d.fileName :=
        (List.append_inj' heq rfl).2 |> List.cons.inj |>.1
      exact h.fileName_ne d' hd' (Component.name.inj hsame)
    · exact h.new d' (List.mem_cons_of_mem _ hd') hmem

/-- What publishing results into a directory has done in the end; `held` says which documents were
held by their files when their turn came. -/
structure Published (location : Location) (held : Document → Bool) (results : List RootResult)
    (before after : Emission) : Prop where
  ready : after.files.Ready before.publisher.directory location
  vacant : ∀ d ∈ documentsOf results,
    before.files.entry? (location ++ [d.fileName]) ≠ some .directory
  shows : ∀ d ∈ documentsOf results, shows after.files location d = true
  /-- Nothing else is changed than the files that did not hold their documents. -/
  frame : ∀ other,
    (∀ d ∈ documentsOf results, held d = false → other ≠ location ++ [d.fileName]) →
    after.files.entry? other = before.files.entry? other
  report : after.report =
    { before.report with
      written := before.report.written ++
        ((documentsOf results).filter (!held ·)).map before.publisher.pathFor
      unchanged := before.report.unchanged ++
        ((documentsOf results).filter held).map before.publisher.pathFor
      failures := before.report.failures ++ failuresOf results }

/-- The state once a document was left alone. -/
def Emission.leave (state : Emission) (d : Document) : Emission where
  publisher := state.publisher.taking d.fileName
  files := state.files
  report :=
    { state.report with unchanged := state.report.unchanged ++ [state.publisher.pathFor d] }

/-- The state once a document was written at a location. -/
def Emission.write (state : Emission) (files : FileTree) (location : Location) (d : Document) :
    Emission where
  publisher := state.publisher.taking d.fileName
  files := files.put (location ++ [d.fileName]) (.file (.text d.render))
  report := { state.report with written := state.report.written ++ [state.publisher.pathFor d] }

/-- A document that its file holds is left alone in a directory that is there. -/
lemma emitChecked_of_shows {documents : List Document}
    (hready : state.files.Ready state.publisher.directory location)
    (hpublishable : Publishable state.publisher (d :: documents))
    (hshows : shows state.files location d = true) :
    emitChecked state (root, .ok d) = state.leave d := by
  have hentry : state.files.entry? (location ++ [d.fileName]) = some (.file (.text d.render)) := by
    simpa [shows] using hshows
  have hpublish := Publisher.publish_of_ready hready (hpublishable.isName d List.mem_cons_self)
    (hpublishable.new d List.mem_cons_self) (by simp [hentry]) d.render
  rw [if_pos hentry] at hpublish
  simp only [emitChecked, Publisher.pathFor]
  rw [hpublish]
  rfl

/-- Another document is written into a directory that is there. -/
lemma emitChecked_of_not_shows {documents : List Document}
    (hready : state.files.Ready state.publisher.directory location)
    (hpublishable : Publishable state.publisher (d :: documents))
    (hentry : state.files.entry? (location ++ [d.fileName]) ≠ some .directory)
    (hshows : shows state.files location d = false) :
    emitChecked state (root, .ok d) = state.write state.files location d := by
  have hdiffers : state.files.entry? (location ++ [d.fileName]) ≠
      some (.file (.text d.render)) := by
    simpa [shows] using hshows
  have hpublish := Publisher.publish_of_ready hready (hpublishable.isName d List.mem_cons_self)
    (hpublishable.new d List.mem_cons_self) hentry d.render
  rw [if_neg hdiffers] at hpublish
  simp only [emitChecked, Publisher.pathFor]
  rw [hpublish]
  rfl

/-- A file of another name stays when a document is written. -/
lemma entry?_put_fileName {files : FileTree} {entry : Entry} {name other : String}
    (h : other ≠ name) :
    FileTree.entry? (files.put (location ++ [name]) entry) (location ++ [other]) =
      files.entry? (location ++ [other]) := by
  refine FileTree.entry?_put_of_ne fun heq => h ?_
  simpa using heq

/-- The other documents are shown as before when a document is written. -/
lemma shows_put {files : FileTree} {entry : Entry} {d' : Document}
    (h : d'.fileName ≠ d.fileName) :
    shows (files.put (location ++ [d.fileName]) entry) location d' = shows files location d' := by
  unfold shows
  rw [entry?_put_fileName h]

namespace Published

variable {after : Emission} {held : Document → Bool}

/-- Nothing is published where there is no result. -/
lemma nil (h : state.files.Ready state.publisher.directory location) :
    Published location held [] state state where
  ready := h
  vacant := by simp [documentsOf]
  shows := by simp [documentsOf]
  frame := fun _ _ => rfl
  report := by simp [documentsOf, failuresOf]

/-- Only the documents that are published matter. -/
lemma congr {held' : Document → Bool} (hheld : ∀ d ∈ documentsOf results, held d = held' d)
    (h : Published location held results state after) :
    Published location held' results state after where
  ready := h.ready
  vacant := h.vacant
  shows := h.shows
  frame := by
    intro other hother
    refine h.frame other fun d hd hnew => hother d hd ?_
    rw [← hheld d hd, hnew]
  report := by
    have hkept : (documentsOf results).filter held = (documentsOf results).filter held' :=
      List.filter_congr hheld
    have hnew : (documentsOf results).filter (!held ·) =
        (documentsOf results).filter (!held' ·) :=
      List.filter_congr fun d hd => by rw [hheld d hd]
    rw [h.report, hkept, hnew]

/-- A failure comes before other results. -/
lemma error
    (h : Published location held results (emitChecked state (root, .error failure)) after) :
    Published location held ((root, .error failure) :: results) state after where
  ready := h.ready
  vacant := h.vacant
  shows := h.shows
  frame := h.frame
  report := by
    rw [h.report]
    simp [emitChecked]

/-- A document that is left alone comes before other results. -/
lemma leave (hne : ∀ d' ∈ documentsOf results, d'.fileName ≠ d.fileName)
    (hshows : Generator.shows state.files location d = true) (hheld : held d = true)
    (h : Published location held results (state.leave d) after) :
    Published location held ((root, .ok d) :: results) state after where
  ready := h.ready
  vacant := by
    have hentry : state.files.entry? (location ++ [d.fileName]) =
        some (.file (.text d.render)) := by
      simpa [Generator.shows] using hshows
    rw [documentsOf_ok]
    exact List.forall_mem_cons.mpr ⟨by simp [hentry], h.vacant⟩
  shows := by
    have hkept : after.files.entry? (location ++ [d.fileName]) =
        state.files.entry? (location ++ [d.fileName]) := by
      refine h.frame _ fun d' hd' _ heq => hne d' hd' ?_
      simpa using heq.symm
    have hthis : Generator.shows after.files location d = true := by
      rw [Generator.shows, hkept]
      exact hshows
    rw [documentsOf_ok]
    exact List.forall_mem_cons.mpr ⟨hthis, h.shows⟩
  frame := by
    intro other hother
    exact h.frame other fun d' hd' => hother d' (List.mem_cons_of_mem _ hd')
  report := by
    rw [h.report]
    simp [Emission.leave, Publisher.pathFor, Publisher.taking, hheld]

/-- A document that is written comes before other results. -/
lemma write (hne : ∀ d' ∈ documentsOf results, d'.fileName ≠ d.fileName)
    (hentry : state.files.entry? (location ++ [d.fileName]) ≠ some .directory)
    (hheld : held d = false)
    (h : Published location held results (state.write state.files location d) after) :
    Published location held ((root, .ok d) :: results) state after where
  ready := h.ready
  vacant := by
    have hrest : ∀ d' ∈ documentsOf results,
        state.files.entry? (location ++ [d'.fileName]) ≠ some .directory := by
      intro d' hd' hdirectory
      refine h.vacant d' hd' ?_
      rw [← hdirectory]
      exact entry?_put_fileName (hne d' hd')
    rw [documentsOf_ok]
    exact List.forall_mem_cons.mpr ⟨hentry, hrest⟩
  shows := by
    have hkept : after.files.entry? (location ++ [d.fileName]) =
        some (.file (.text d.render)) := by
      rw [h.frame _ fun d' hd' _ heq => hne d' hd' (by simpa using heq.symm)]
      exact FileTree.entry?_put_self hentry
    have hthis : Generator.shows after.files location d = true := by
      simp [Generator.shows, hkept]
    rw [documentsOf_ok]
    exact List.forall_mem_cons.mpr ⟨hthis, h.shows⟩
  frame := by
    intro other hother
    have hrest := h.frame other fun d' hd' => hother d' (List.mem_cons_of_mem _ hd')
    have hthis : other ≠ location ++ [d.fileName] := hother d List.mem_cons_self hheld
    rw [hrest]
    exact FileTree.entry?_put_of_ne hthis
  report := by
    rw [h.report]
    simp [Emission.write, Publisher.pathFor, Publisher.taking, hheld]

end Published

/-! ### Runs without a fault of the files -/

/-- No failure in a report is one of the files. -/
def Undisturbed (failures : List (TypeName × Failure)) : Prop :=
  ∀ root fault, (root, .file fault) ∉ failures

/-- Failures are only added to a report. -/
lemma mem_failures_emitChecked {entry : TypeName × Failure} (result : RootResult)
    (h : entry ∈ state.report.failures) : entry ∈ (emitChecked state result).report.failures := by
  obtain ⟨root, failure | d⟩ := result
  · exact List.mem_append_left _ h
  · rcases houtcome : (state.publisher.publish state.files (state.publisher.pathFor d)
        d.render).outcome with failure | _ | _
    all_goals simp [emitChecked, houtcome, GenerationReport.add, h]

/-- If no failure in the end is one of the files, none was before. -/
lemma undisturbed_of_foldl
    (h : Undisturbed (results.foldl emitChecked state).report.failures) :
    Undisturbed state.report.failures := by
  induction results generalizing state with
  | nil => exact h
  | cons result results ih =>
    intro root fault hmem
    exact ih h root fault (mem_failures_emitChecked result hmem)

/-- A fault that publishing meets is in the report. -/
lemma not_undisturbed_of_outcome {fault : FileFault}
    (h : (state.publisher.publish state.files (state.publisher.pathFor d) d.render).outcome =
      .error (.file fault)) :
    ¬ Undisturbed (emitChecked state (root, .ok d)).report.failures := by
  intro hundisturbed
  refine hundisturbed root fault ?_
  simp [emitChecked, h, GenerationReport.add]

/-- A directory that stands in place of a file is met. -/
lemma vacant_of_undisturbed {documents : List Document}
    (hready : state.files.Ready state.publisher.directory location)
    (hpublishable : Publishable state.publisher (d :: documents))
    (h : Undisturbed (emitChecked state (root, .ok d)).report.failures) :
    state.files.entry? (location ++ [d.fileName]) ≠ some .directory := by
  intro hentry
  have hname := hpublishable.isName d List.mem_cons_self
  have hcurrent := hready.isCurrent_join hname d.render
  rw [hentry] at hcurrent
  have hfault : (state.publisher.publish state.files (state.publisher.pathFor d)
      d.render).outcome = .error (.file .isADirectory) := by
    unfold Publisher.pathFor
    rw [Publisher.publish_of_new hname (hpublishable.new d List.mem_cons_self), hcurrent]
  exact not_undisturbed_of_outcome hfault h

/-- Where a directory is there, results are published into it. -/
theorem published_foldl (hready : state.files.Ready state.publisher.directory location)
    (hpublishable : Publishable state.publisher (documentsOf results))
    (h : Undisturbed (results.foldl emitChecked state).report.failures) :
    Published location (shows state.files location) results state
      (results.foldl emitChecked state) := by
  induction results generalizing state with
  | nil => exact .nil hready
  | cons result results ih =>
    rw [List.foldl_cons] at h ⊢
    obtain ⟨root, failure | d⟩ := result
    · refine .error (ih ?_ ?_ h)
      · exact hready
      · exact hpublishable
    · rw [documentsOf_ok] at hpublishable
      have hne := hpublishable.fileName_ne
      have hentry := vacant_of_undisturbed hready hpublishable (undisturbed_of_foldl h)
      cases hshows : shows state.files location d with
      | true =>
        rw [emitChecked_of_shows hready hpublishable hshows] at h ⊢
        refine .leave hne hshows hshows (ih ?_ ?_ h)
        · exact hready
        · exact hpublishable.tail
      | false =>
        rw [emitChecked_of_not_shows hready hpublishable hentry hshows] at h ⊢
        have hrest := ih (hready.put hentry) hpublishable.tail h
        exact .write hne hentry hshows (hrest.congr fun d' hd' => shows_put (hne d' hd'))

/-- Where there are only failures, nothing is published. -/
lemma foldl_of_documentsOf_eq_nil (h : documentsOf results = []) :
    results.foldl emitChecked state =
      { state with
        report := { state.report with
          failures := state.report.failures ++ failuresOf results } } := by
  induction results generalizing state with
  | nil => simp [failuresOf]
  | cons result results ih =>
    obtain ⟨root, failure | d⟩ := result
    · rw [List.foldl_cons, ih h]
      simp [emitChecked]
    · cases h

/-- A document whose directory is not there is written once the directory is made. -/
lemma emitChecked_of_makeDirectories {made : FileTree} (hname : IsName d.fileName)
    (hnew : Path.components state.publisher.directory ++ [.name d.fileName] ∉
      state.publisher.published)
    (hcurrent : state.files.isCurrent (state.publisher.pathFor d) d.render = .ok false)
    (hmade : state.files.makeDirectories [] (Path.components state.publisher.directory) =
      .ok made)
    (hready : made.Ready state.publisher.directory location)
    (hentry : made.entry? (location ++ [d.fileName]) ≠ some .directory) :
    emitChecked state (root, .ok d) =
      Emission.write { state with files := made } made location d := by
  have hpublish := Publisher.publish_of_makeDirectories hname hnew hcurrent hmade hready hentry
  simp only [emitChecked, Publisher.pathFor]
  rw [hpublish]
  rfl

/-- Where a directory is not there, it is made for the first document, which is written, and the
other results are published into it. -/
theorem published_foldl_of_not_ready
    (hready : ∀ location, ¬ state.files.Ready state.publisher.directory location)
    (hpublishable : Publishable state.publisher (documentsOf results))
    (h : Undisturbed (results.foldl emitChecked state).report.failures)
    (hresults : documentsOf results ≠ []) :
    ∃ made location held,
      state.files.makeDirectories [] (Path.components state.publisher.directory) = .ok made ∧
      made.Ready state.publisher.directory location ∧
      (∀ d, held d = true → shows made location d = true) ∧
      (∀ d ∈ documentsOf results, state.files.isCurrent (state.publisher.pathFor d) d.render =
        .ok false) ∧
      Published location held results { state with files := made }
        (results.foldl emitChecked state) := by
  induction results generalizing state with
  | nil => exact absurd rfl hresults
  | cons result results ih =>
    rw [List.foldl_cons] at h ⊢
    obtain ⟨root, failure | d⟩ := result
    · obtain ⟨made, location, held, hmade, hthere, hheld, hcurrent, hpublished⟩ := by
        refine ih ?_ ?_ h hresults
        · exact hready
        · exact hpublishable
      refine ⟨made, location, held, hmade, hthere, hheld, hcurrent, .error ?_⟩
      exact hpublished
    · rw [documentsOf_ok] at hpublishable
      have hname := hpublishable.isName d List.mem_cons_self
      have hne := hpublishable.fileName_ne
      rcases Publisher.publish_of_not_ready hready hname
        (hpublishable.new d List.mem_cons_self) d.render with
        ⟨fault, hfault⟩ | ⟨made, location, hmade, hthere, hentry, hcurrent⟩
      · exact absurd (undisturbed_of_foldl h) (not_undisturbed_of_outcome hfault)
      · rw [emitChecked_of_makeDirectories hname (hpublishable.new d List.mem_cons_self) hcurrent
          hmade hthere hentry] at h ⊢
        have hrest := published_foldl (hthere.put hentry) hpublishable.tail h
        refine ⟨made, location, fun d' => d'.fileName != d.fileName && shows made location d',
          hmade, hthere, ?_, ?_, .write hne hentry (by simp) (hrest.congr ?_)⟩
        · intro d' hd'
          exact (Bool.and_eq_true_iff.mp hd').2
        · rcases FileTree.isCurrent_of_not_ready hready with hmissing | ⟨fault, hfault⟩
          · intro d' hd'
            exact (hmissing d'.fileName d'.render (hpublishable.isName d' hd')).1
          · rw [hfault d.fileName d.render hname] at hcurrent
            cases hcurrent
        · intro d' hd'
          have hother := hne d' hd'
          have hshows : shows (made.put (location ++ [d.fileName]) (.file (.text d.render)))
              location d' = shows made location d' := shows_put hother
          rw [bne_iff_ne.mpr hother, Bool.true_and]
          exact hshows

/-- Documents that their files hold are left alone. -/
theorem foldl_of_shows (hready : state.files.Ready state.publisher.directory location)
    (hpublishable : Publishable state.publisher (documentsOf results))
    (hshows : ∀ d ∈ documentsOf results, shows state.files location d = true) :
    (results.foldl emitChecked state).files = state.files ∧
      (results.foldl emitChecked state).report =
        { state.report with
          unchanged := state.report.unchanged ++
            (documentsOf results).map state.publisher.pathFor
          failures := state.report.failures ++ failuresOf results } := by
  induction results generalizing state with
  | nil => simp [documentsOf, failuresOf]
  | cons result results ih =>
    rw [List.foldl_cons]
    obtain ⟨root, failure | d⟩ := result
    · have hrest := by
        refine @ih (emitChecked state (root, .error failure)) ?_ ?_ ?_
        · exact hready
        · exact hpublishable
        · exact hshows
      rw [hrest.1, hrest.2]
      simp [emitChecked]
    · rw [documentsOf_ok] at hpublishable hshows
      obtain ⟨hthis, hothers⟩ := List.forall_mem_cons.mp hshows
      rw [emitChecked_of_shows hready hpublishable hthis]
      have hrest := by
        refine @ih (state.leave d) ?_ hpublishable.tail ?_
        · exact hready
        · exact hothers
      rw [hrest.1, hrest.2]
      simp [Emission.leave, Publisher.pathFor, Publisher.taking]

/-! ### Comparing -/

/-- In a directory that is there, a file is compared with its document. -/
lemma isCurrent_pathFor {publisher : Publisher} {files : FileTree}
    (hready : files.Ready publisher.directory location) (hname : IsName d.fileName)
    (hvacant : files.entry? (location ++ [d.fileName]) ≠ some .directory) :
    files.isCurrent (publisher.pathFor d) d.render = .ok (shows files location d) := by
  have hcurrent := hready.isCurrent_join hname d.render
  unfold Publisher.pathFor shows
  rw [hcurrent]
  cases hentry : files.entry? (location ++ [d.fileName]) with
  | none => simp
  | some entry =>
    cases entry with
    | directory => exact absurd hentry hvacant
    | file content =>
      have hsame : (content == .text d.render) = decide (content = .text d.render) := by
        rw [Bool.eq_iff_iff]
        simp
      simpa using hsame

/-- Comparing finds the documents that are held by their files current, and the others missing where
nothing is there. -/
theorem compared_foldl {publisher : Publisher} {files : FileTree} {held : Document → Bool}
    (h : ∀ d ∈ documentsOf results,
      files.isCurrent (publisher.pathFor d) d.render = .ok (held d)) (report : CheckReport) :
    results.foldl (compareChecked publisher files) report =
      { current := report.current ++ ((documentsOf results).filter held).map publisher.pathFor
        stale := report.stale ++
          (((documentsOf results).filter (!held ·)).map publisher.pathFor).filter files.hasEntry
        missing := report.missing ++
          (((documentsOf results).filter (!held ·)).map publisher.pathFor).filter
            (!files.hasEntry ·)
        failures := report.failures ++ failuresOf results } := by
  induction results generalizing report with
  | nil => simp [documentsOf, failuresOf]
  | cons result results ih =>
    rw [List.foldl_cons]
    obtain ⟨root, failure | d⟩ := result
    · rw [ih h]
      simp [compareChecked]
    · rw [documentsOf_ok] at h
      obtain ⟨hthis, hothers⟩ := List.forall_mem_cons.mp h
      rw [ih hothers]
      cases hheld : held d with
      | true => simp [compareChecked, CheckReport.add, hthis, hheld]
      | false =>
        cases hentry : files.hasEntry (publisher.pathFor d)
        all_goals simp [compareChecked, CheckReport.add, hthis, hheld, hentry]

end Generator

end SchemaCompiler
