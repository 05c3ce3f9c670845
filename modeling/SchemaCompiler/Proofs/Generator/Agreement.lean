import SchemaCompiler.Proofs.Generator.DocumentFailures
import SchemaCompiler.Proofs.Generator.Publishing
import SchemaCompiler.Proofs.SchemaName

/-!
# Publishing agrees with comparing

A run that publishes and one that compares take the results of the roots in the same order.  If
nothing goes wrong with the files and every root has the same result in both, they agree on every
root, and further runs find that all is done (`Generator.emitAll_agrees_checkAll`).  No document is
kept from being published by another one, since no two of them have the same file name
(`Generator.publishable_attempts`).

There are two provisos.  A path such as `x/../b` leads nowhere as long as `x` is missing, whatever
is in `b`.  Publishing makes `x` for the first document, and from then on the path leads to `b`.
Comparing cannot foretell that.  And of two types with one schema name the one whose session comes
first has the document, which need not be the same in two runs (`Generator.runs_disagree`).
-/

namespace SchemaCompiler

namespace Generator

variable {g : Generator} {files : FileTree} {output : String} {root : TypeName} {d : Document}
  {failure : Failure} {base : BaseUri} {turns other : List ℕ}

/-! ### The results of a run -/

/-- The results of all roots once the documents were checked. -/
def attempts (g : Generator) (turns : List ℕ) : List RootResult := (g.results turns).map checked

/-- The publisher of a run. -/
def publisher (g : Generator) (output : String) : Publisher :=
  .into output g.config.outputLocation

/-- What publishing all roots does in the end. -/
def emission (g : Generator) (turns : List ℕ) (files : FileTree) (output : String) : Emission :=
  (g.attempts turns).foldl emitChecked { publisher := g.publisher output, files }

/-- What comparing all roots finds. -/
def comparison (g : Generator) (turns : List ℕ) (files : FileTree) (output : String) :
    CheckReport :=
  (g.attempts turns).foldl (compareChecked (g.publisher output) files) {}

/-- With a base URI, a run succeeds; what has been found so far has no part in it. -/
lemma emitAll_eq (hbase : g.config.baseUri = some base) (turns : List ℕ) (files : FileTree)
    (output : String) :
    ∃ found, g.emitAll files output turns =
      (g.withFindings found, (g.emission turns files output).files,
        .ok { (g.emission turns files output).report with
          diagnostics := (g.withFindings found).diagnostics }) := by
  refine ⟨(g.answers turns).2.flatMap (·.1), ?_⟩
  have hfold : (g.results turns).foldl emitRoot { publisher := g.publisher output, files } =
      g.emission turns files output := by
    rw [emission, attempts, List.foldl_map]
    exact congrArg (fun step => (g.results turns).foldl step _) (funext₂ emitRoot_eq)
  rw [emitAll, generateAll_eq hbase, ← hfold]
  rfl

/-- With a base URI, a comparison succeeds. -/
lemma checkAll_eq (hbase : g.config.baseUri = some base) (turns : List ℕ) (files : FileTree)
    (output : String) :
    (g.checkAll files output turns).2 = .ok (g.comparison turns files output) := by
  have hfold : (g.results turns).foldl (checkRoot (g.publisher output) files) {} =
      g.comparison turns files output := by
    rw [comparison, attempts, List.foldl_map]
    exact congrArg (fun step => (g.results turns).foldl step _) (funext₂ (checkRoot_eq _ _))
  rw [checkAll, generateAll_eq hbase, ← hfold]
  rfl

/-- What has been found so far has no part in publishing. -/
lemma emission_withFindings (found : List Diagnostic) :
    (g.withFindings found).emission turns files output = g.emission turns files output := rfl

/-- What has been found so far has no part in comparing. -/
lemma comparison_withFindings (found : List Diagnostic) :
    (g.withFindings found).comparison turns files output = g.comparison turns files output := rfl

/-- In runs in which every root has the same result, the documents are checked alike. -/
lemma attempts_eq (hbase : g.config.baseUri = some base)
    (hsame : (g.generateAll other).2 = (g.generateAll turns).2) :
    g.attempts other = g.attempts turns := by
  rw [generateAll_eq hbase, generateAll_eq hbase] at hsame
  rw [attempts, attempts, Except.ok.inj hsame]

/-- If every root has the same result, the same is published. -/
lemma emission_congr (h : g.attempts other = g.attempts turns) :
    g.emission other files output = g.emission turns files output := by
  rw [emission, emission, h]

/-- If every root has the same result, the same is found by comparing. -/
lemma comparison_congr (h : g.attempts other = g.attempts turns) :
    g.comparison other files output = g.comparison turns files output := by
  rw [comparison, comparison, h]

/-- A root has a document to publish if it has one that is a schema. -/
lemma mem_attempts_ok : (root, .ok d) ∈ g.attempts turns ↔
    (root, .ok d) ∈ g.results turns ∧ d.check = .ok () := by
  unfold attempts checked
  rw [List.mem_map]
  constructor
  · rintro ⟨⟨root', failure | d'⟩, hmem, heq⟩
    · cases (Prod.mk.inj heq).2
    · cases hcheck : d'.check with
      | error failure => simp [Except.bind, hcheck, Except.map] at heq
      | ok _ =>
        simp only [Except.bind, hcheck, Except.map, Prod.mk.injEq, Except.ok.injEq] at heq
        obtain ⟨rfl, rfl⟩ := heq
        exact ⟨hmem, hcheck⟩
  · rintro ⟨hmem, hcheck⟩
    exact ⟨_, hmem, by simp [Except.bind, hcheck, Except.map]⟩

/-- The results belong to the roots, in order. -/
lemma map_fst_attempts (hunit : g.unit.Distinct) (hbase : g.config.baseUri = some base)
    (turns : List ℕ) : (g.attempts turns).map (·.1) = g.unit.roots := by
  rw [attempts, List.map_map]
  exact map_fst_results hunit hbase turns

/-- No root has two results. -/
lemma nodup_map_fst_attempts (hunit : g.unit.Distinct) (hbase : g.config.baseUri = some base)
    (turns : List ℕ) : ((g.attempts turns).map (·.1)).Nodup := by
  rw [map_fst_attempts hunit hbase]
  exact hunit.nodup_roots

/-- Files have no part in the failures of roots in a run. -/
lemma ofDeclarations_of_mem_results (hunit : g.unit.Distinct) (hbase : g.config.baseUri = some base)
    (h : (root, .error failure) ∈ g.results turns) : failure.OfDeclarations := by
  rcases settles_of_mem_results hunit hbase h with hfailure | ⟨stopped, rfl, -, hcollides⟩
  · exact g.ofDeclarations_document {} root failure (hfailure {})
  · obtain ⟨t, owner, -, -, -, -, hcollision⟩ := hcollides
    rw [hcollision]
    trivial

/-- Files have no part in the failures of roots whose documents are not published. -/
lemma ofDeclarations_of_mem_attempts (hunit : g.unit.Distinct)
    (hbase : g.config.baseUri = some base) (h : (root, .error failure) ∈ g.attempts turns) :
    failure.OfDeclarations := by
  unfold attempts checked at h
  obtain ⟨⟨root', failure' | d⟩, hmem, heq⟩ := List.mem_map.mp h
  · obtain ⟨rfl, hfailure⟩ := Prod.mk.inj heq
    obtain rfl := Except.error.inj hfailure
    exact ofDeclarations_of_mem_results hunit hbase hmem
  · cases hcheck : d.check with
    | error reason =>
      simp only [Except.bind, hcheck, Except.map, Prod.mk.injEq, Except.error.injEq] at heq
      exact heq.2 ▸ d.ofDeclarations_check reason hcheck
    | ok _ => simp [Except.bind, hcheck, Except.map] at heq

/-- A result that holds something is a success. -/
lemma eq_ok_of_toOption {result : Except Failure Document} (h : result.toOption = some d) :
    result = .ok d := by
  cases result with
  | error failure => cases h
  | ok d' => exact congrArg Except.ok (Option.some.inj h)

/-- The documents of a unit can be published. -/
theorem publishable_attempts (hunit : g.unit.Distinct) (hbase : g.config.baseUri = some base)
    (turns : List ℕ) (output : String) :
    Publishable (g.publisher output) (documentsOf (g.attempts turns)) where
  isName := by
    intro d hd
    obtain ⟨root, hmem⟩ := mem_documentsOf.mp hd
    have hholds := holds_of_mem_results hunit hbase (mem_attempts_ok.mp hmem).1
    exact SchemaName.isName_fileName hholds.valid
  distinct := by
    have hroots : (g.attempts turns).Pairwise fun first second => first.1 ≠ second.1 :=
      List.pairwise_map.mp (nodup_map_fst_attempts hunit hbase turns)
    rw [List.Nodup, List.pairwise_map, documentsOf, List.pairwise_filterMap]
    refine hroots.imp_of_mem ?_
    rintro ⟨root, result⟩ ⟨other, result'⟩ hmem hmem' hne d hd d' hd' hname
    obtain rfl := eq_ok_of_toOption hd
    obtain rfl := eq_ok_of_toOption hd'
    have hsame := SchemaName.fileName_injective hname
    exact hne (eq_of_schemaName_eq hunit hbase (mem_attempts_ok.mp hmem).1
      (mem_attempts_ok.mp hmem').1 hsame)
  new := by
    intro d hd
    exact List.not_mem_nil

/-! ### Runs without a fault of the files -/

/-- What a run has done that met no fault of the files; `current` says which documents were held by
their files at the beginning, and `held` which ones when their turn came. -/
structure Undisturbed.Outcome (g : Generator) (turns : List ℕ) (files : FileTree) (output : String)
    (current held : Document → Bool) : Prop where
  compared : ∀ d ∈ documentsOf (g.attempts turns),
    files.isCurrent ((g.publisher output).pathFor d) d.render = .ok (current d)
  /-- Where `..` is only taken out of directories that are there, this is the same. -/
  agrees : files.WellFormed →
    files.Enters [] (Path.components (g.publisher output).directory) →
    ∀ d ∈ documentsOf (g.attempts turns), current d = held d
  report : (g.emission turns files output).report =
    { written :=
        ((documentsOf (g.attempts turns)).filter (!held ·)).map (g.publisher output).pathFor
      unchanged := ((documentsOf (g.attempts turns)).filter held).map (g.publisher output).pathFor
      failures := failuresOf (g.attempts turns) }
  settled : documentsOf (g.attempts turns) = [] ∨ ∃ location,
    (g.emission turns files output).files.Ready (g.publisher output).directory location ∧
      ∀ d ∈ documentsOf (g.attempts turns),
        shows (g.emission turns files output).files location d = true
  /-- Nothing else is changed than the files of documents that were not held, and directories. -/
  frame : ∀ other,
    (∀ d ∈ documentsOf (g.attempts turns), held d = false →
      (g.emission turns files output).files.locate ((g.publisher output).pathFor d) ≠ .ok other) →
    (g.emission turns files output).files.entry? other = files.entry? other ∨
      files.entry? other = none ∧
        (g.emission turns files output).files.entry? other = some .directory

/-- What was published into a directory, which may have been made before. -/
lemma Published.outcome {made : FileTree} {location : Location} {current held : Document → Bool}
    (hpublishable : Publishable (g.publisher output) (documentsOf (g.attempts turns)))
    (hmade : ∀ other, made.entry? other = files.entry? other ∨
      files.entry? other = none ∧ made.entry? other = some .directory)
    (hcompared : ∀ d ∈ documentsOf (g.attempts turns),
      files.isCurrent ((g.publisher output).pathFor d) d.render = .ok (current d))
    (hagrees : files.WellFormed →
      files.Enters [] (Path.components (g.publisher output).directory) →
      ∀ d ∈ documentsOf (g.attempts turns), current d = held d)
    (h : Published location held (g.attempts turns)
      { publisher := g.publisher output, files := made } (g.emission turns files output)) :
    Undisturbed.Outcome g turns files output current held where
  compared := hcompared
  agrees := hagrees
  report := h.report
  settled := Or.inr ⟨location, h.ready, h.shows⟩
  frame := by
    intro other hother
    have hkept := h.frame other fun d hd hheld heq => hother d hd hheld <| by
      rw [heq]
      exact h.ready.locate_join (hpublishable.isName d hd)
    rw [hkept]
    exact hmade other

/-- A run that meets no fault of the files has an outcome. -/
theorem Undisturbed.exists_outcome (hunit : g.unit.Distinct)
    (hbase : g.config.baseUri = some base)
    (h : Undisturbed (g.emission turns files output).report.failures) :
    ∃ current held, Outcome g turns files output current held := by
  have hpublishable := publishable_attempts hunit hbase turns output
  by_cases hready : ∃ location, files.Ready (g.publisher output).directory location
  · obtain ⟨location, hready⟩ := hready
    have hpublished := published_foldl hready hpublishable h
    have hcompared : ∀ d ∈ documentsOf (g.attempts turns),
        files.isCurrent ((g.publisher output).pathFor d) d.render =
          .ok (shows files location d) :=
      fun d hd => isCurrent_pathFor hready (hpublishable.isName d hd) (hpublished.vacant d hd)
    exact ⟨_, _, hpublished.outcome hpublishable (fun _ => Or.inl rfl) hcompared
      fun _ _ _ _ => rfl⟩
  · have hready := not_exists.mp hready
    by_cases hresults : documentsOf (g.attempts turns) = []
    · have hemission : g.emission turns files output =
          { publisher := g.publisher output, files
            report := { failures := failuresOf (g.attempts turns) } } :=
        foldl_of_documentsOf_eq_nil hresults
      refine ⟨fun _ => false, fun _ => false, ?_, fun _ _ _ _ => rfl, ?_, Or.inl hresults, ?_⟩
      · rw [hresults]
        exact fun d hd => absurd hd List.not_mem_nil
      · rw [hemission, hresults]
        rfl
      · rw [hemission]
        exact fun _ _ => Or.inl rfl
    · obtain ⟨made, location, held, hmade, hthere, hheld, hcurrent, hpublished⟩ :=
        published_foldl_of_not_ready hready hpublishable h hresults
      refine ⟨fun _ => false, held, hpublished.outcome hpublishable
        (FileTree.entry?_of_makeDirectories hmade) hcurrent ?_⟩
      -- A directory that had to be made holds nothing, so no document was held.
      intro hfiles henters d hd
      have hempty := hthere.empty hfiles henters hready hmade d.fileName
      cases hnew : held d with
      | false => rfl
      | true =>
        have hshows := hheld d hnew
        rw [shows, hempty] at hshows
        cases hshows

/-! ### What reports say about roots -/

/-- A root has a document that is a schema. -/
def Publishes (g : Generator) (turns : List ℕ) (root : TypeName) (d : Document) : Prop :=
  (root, .ok d) ∈ g.results turns ∧ d.check = .ok ()

/-- The path of the document of a root stands in a list. -/
def Lists (g : Generator) (turns : List ℕ) (output : String) (paths : List String)
    (root : TypeName) : Prop :=
  ∃ d, g.Publishes turns root d ∧ (g.publisher output).pathFor d ∈ paths

/-- Exactly one of three statements holds. -/
def ExactlyOne (p q r : Prop) : Prop := (p ∧ ¬ q ∧ ¬ r) ∨ (¬ p ∧ q ∧ ¬ r) ∨ (¬ p ∧ ¬ q ∧ r)

/-- A root has one result. -/
lemma eq_of_mem_attempts (hunit : g.unit.Distinct) (hbase : g.config.baseUri = some base)
    {result result' : Except Failure Document}
    (h : (root, result) ∈ g.attempts turns) (h' : (root, result') ∈ g.attempts turns) :
    result = result' := by
  have hsame := List.inj_on_of_nodup_map (nodup_map_fst_attempts hunit hbase turns) h h' rfl
  exact (Prod.mk.inj hsame).2

/-- Failures are results of roots. -/
lemma mem_failuresOf {results : List RootResult} :
    (root, failure) ∈ failuresOf results ↔ (root, .error failure) ∈ results := by
  induction results with
  | nil => simp [failuresOf]
  | cons result rest ih =>
    obtain ⟨root', failure' | d⟩ := result
    · rw [failuresOf_error, List.mem_cons, List.mem_cons, ih]
      simp
    · rw [failuresOf_ok, List.mem_cons, ih]
      simp

/-- Documents under one path have one file name. -/
lemma fileName_eq_of_pathFor_eq {publisher : Publisher} {documents : List Document}
    (hpublishable : Publishable publisher documents) {d' : Document} (hd : d ∈ documents)
    (hd' : d' ∈ documents) (h : publisher.pathFor d = publisher.pathFor d') :
    d.fileName = d'.fileName := by
  have hcomponents := congrArg Path.components h
  unfold Publisher.pathFor at hcomponents
  rw [Path.components_join (hpublishable.isName d hd),
    Path.components_join (hpublishable.isName d' hd')] at hcomponents
  simpa using hcomponents

/-- Documents that can be published have distinct paths. -/
lemma Publishable.nodup_pathFor {publisher : Publisher} {documents : List Document}
    (h : Publishable publisher documents) : (documents.map publisher.pathFor).Nodup := by
  have hnames := h.distinct
  rw [List.Nodup, List.pairwise_map] at hnames ⊢
  exact hnames.imp_of_mem fun hd hd' hne hpath => hne (fileName_eq_of_pathFor_eq h hd hd' hpath)

/-- A document stands among the paths of some documents that can be published if it is one. -/
lemma Publishable.mem_pathFor_iff {publisher : Publisher} {documents : List Document}
    (h : Publishable publisher documents) (hd : d ∈ documents) (p : Document → Bool) :
    publisher.pathFor d ∈ (documents.filter p).map publisher.pathFor ↔ p d = true := by
  rw [List.mem_map]
  constructor
  · rintro ⟨d', hd', hpath⟩
    obtain ⟨hmem, hp⟩ := List.mem_filter.mp hd'
    have hsame := List.inj_on_of_nodup_map h.nodup_pathFor hmem hd hpath
    exact hsame ▸ hp
  · intro hp
    exact ⟨d, List.mem_filter.mpr ⟨hd, hp⟩, rfl⟩

/-- The root of a document that can be published is listed with it. -/
lemma lists_iff (hunit : g.unit.Distinct) (hbase : g.config.baseUri = some base)
    {paths : List String}
    (hd : (root, .ok d) ∈ g.attempts turns) :
    g.Lists turns output paths root ↔ (g.publisher output).pathFor d ∈ paths := by
  constructor
  · rintro ⟨d', hpublishes, hpath⟩
    have hsame := eq_of_mem_attempts hunit hbase (mem_attempts_ok.mpr hpublishes) hd
    exact Except.ok.inj hsame ▸ hpath
  · intro hpath
    exact ⟨d, mem_attempts_ok.mp hd, hpath⟩

namespace Undisturbed.Outcome

variable {current held : Document → Bool}

/-- Every root is written, unchanged or failed, and only one of these. -/
lemma exactlyOne (h : Outcome g turns files output current held) (hunit : g.unit.Distinct)
    (hbase : g.config.baseUri = some base) (hroot : root ∈ g.unit.roots) :
    ExactlyOne (g.Lists turns output (g.emission turns files output).report.written root)
      (g.Lists turns output (g.emission turns files output).report.unchanged root)
      (∃ failure, (root, failure) ∈ (g.emission turns files output).report.failures) := by
  have hpublishable := publishable_attempts hunit hbase turns output
  rw [← map_fst_attempts hunit hbase turns] at hroot
  obtain ⟨⟨root, result⟩, hresult, rfl⟩ := List.mem_map.mp hroot
  rw [h.report]
  simp only [mem_failuresOf]
  cases result with
  | error failure =>
    have hnot : ∀ paths, ¬ g.Lists turns output paths root := by
      rintro paths ⟨d, hpublishes, -⟩
      cases eq_of_mem_attempts hunit hbase hresult (mem_attempts_ok.mpr hpublishes)
    exact Or.inr (Or.inr ⟨hnot _, hnot _, failure, hresult⟩)
  | ok d =>
    have hd : d ∈ documentsOf (g.attempts turns) := mem_documentsOf.mpr ⟨root, hresult⟩
    have hfails : ¬ ∃ failure, (root, .error failure) ∈ g.attempts turns := by
      rintro ⟨failure, hfailure⟩
      cases eq_of_mem_attempts hunit hbase hresult hfailure
    rw [lists_iff hunit hbase hresult, lists_iff hunit hbase hresult,
      hpublishable.mem_pathFor_iff hd,
      hpublishable.mem_pathFor_iff hd]
    cases hheld : held d with
    | true => exact Or.inr (Or.inl ⟨by simp, rfl, hfails⟩)
    | false => exact Or.inl ⟨rfl, by simp, hfails⟩

/-- No path is listed twice. -/
lemma nodup (h : Outcome g turns files output current held)
    (hpublishable : Publishable (g.publisher output) (documentsOf (g.attempts turns))) :
    ((g.emission turns files output).report.written ++
      (g.emission turns files output).report.unchanged).Nodup := by
  rw [h.report, ← List.map_append]
  have hperm := (List.filter_append_perm held (documentsOf (g.attempts turns))).symm.trans
    List.perm_append_comm
  exact (hperm.map _).nodup_iff.mp hpublishable.nodup_pathFor

/-- A document is in its file afterwards. -/
lemma read_pathFor (h : Outcome g turns files output current held)
    (hpublishable : Publishable (g.publisher output) (documentsOf (g.attempts turns)))
    (hd : d ∈ documentsOf (g.attempts turns)) :
    (g.emission turns files output).files.read ((g.publisher output).pathFor d) =
      .ok (.text d.render) := by
  rcases h.settled with hnone | ⟨location, hready, hshows⟩
  · rw [hnone] at hd
    exact absurd hd List.not_mem_nil
  · have hentry : (g.emission turns files output).files.entry? (location ++ [d.fileName]) =
        some (.file (.text d.render)) := by
      simpa [shows] using hshows d hd
    unfold Publisher.pathFor FileTree.read
    rw [hready.find_join (hpublishable.isName d hd), hentry]
    rfl

/-- A comparison afterwards finds all documents current. -/
lemma comparison_eq (h : Outcome g turns files output current held)
    (hpublishable : Publishable (g.publisher output) (documentsOf (g.attempts turns))) :
    g.comparison turns (g.emission turns files output).files output =
      { current := (documentsOf (g.attempts turns)).map (g.publisher output).pathFor
        failures := failuresOf (g.attempts turns) } := by
  have hcurrent : ∀ d ∈ documentsOf (g.attempts turns),
      (g.emission turns files output).files.isCurrent
      ((g.publisher output).pathFor d) d.render = .ok true := by
    intro d hd
    rw [FileTree.isCurrent, h.read_pathFor hpublishable hd]
    simp
  have hcompared := compared_foldl hcurrent {}
  simpa [comparison] using hcompared

/-- Publishing again writes nothing. -/
lemma emission_eq (h : Outcome g turns files output current held)
    (hpublishable : Publishable (g.publisher output) (documentsOf (g.attempts turns))) :
    (g.emission turns (g.emission turns files output).files output).files =
        (g.emission turns files output).files ∧
      (g.emission turns (g.emission turns files output).files output).report.written = [] := by
  rcases h.settled with hnone | ⟨location, hready, hshows⟩
  · constructor
    all_goals
      unfold emission
      rw [foldl_of_documentsOf_eq_nil hnone]
  · obtain ⟨hfiles, hreport⟩ := by
      refine @foldl_of_shows (g.attempts turns)
        { publisher := g.publisher output, files := (g.emission turns files output).files }
        location ?_ hpublishable hshows
      exact hready
    exact ⟨hfiles, congrArg GenerationReport.written hreport⟩

end Undisturbed.Outcome

/-! ### Agreement -/

/-- What publishing all roots has done with the files, and what its report says of the roots. -/
structure Emitted (g : Generator) (turns : List ℕ) (files : FileTree) (output : String)
    (after : FileTree) (report : GenerationReport) : Prop where
  roots : ∀ root ∈ g.unit.roots, ExactlyOne (g.Lists turns output report.written root)
    (g.Lists turns output report.unchanged root) (∃ failure, (root, failure) ∈ report.failures)
  paths : (report.written ++ report.unchanged).Nodup
  noConflict : ∀ root path, (root, .conflictingOutput path) ∉ report.failures
  holds : ∀ root d, g.Publishes turns root d →
    after.read ((g.publisher output).pathFor d) = .ok (.text d.render)
  /-- All other files stay, and nothing but directories is new. -/
  frame : ∀ location, (∀ path ∈ report.written, after.locate path ≠ .ok location) →
    after.entry? location = files.entry? location ∨
      files.entry? location = none ∧ after.entry? location = some .directory

/-- What publishing all roots has in common with runs whose sessions take other turns: with
comparing the same files before, and with comparing and publishing afterwards. -/
structure Agreement (g : Generator) (turns : List ℕ) (files : FileTree) (output : String)
    (next : Generator) (after : FileTree) (report : GenerationReport) : Prop where
  /-- Where `..` is only taken out of directories that are there, comparing foretells publishing. -/
  compared : ∃ found, (g.checkAll files output turns).2 = .ok found ∧
    found.failures = report.failures ∧
    (files.WellFormed → files.Enters [] (Path.components (g.publisher output).directory) →
      found.current = report.unchanged ∧ found.stale = report.written.filter files.hasEntry ∧
        found.missing = report.written.filter (!files.hasEntry ·))
  comparedAgain : ∃ again, (next.checkAll after output turns).2 = .ok again ∧ again.stale = [] ∧
    again.missing = [] ∧ again.failures = report.failures
  emittedAgain : ∃ again, (next.emitAll after output turns).2 = (after, .ok again) ∧
    again.written = []

namespace Undisturbed.Outcome

variable {current held : Document → Bool} {found : List Diagnostic}

/-- A run that meets no fault of the files has published what it reports. -/
lemma emitted (h : Outcome g turns files output current held) (hunit : g.unit.Distinct)
    (hbase : g.config.baseUri = some base) :
    Emitted g turns files output (g.emission turns files output).files
      { (g.emission turns files output).report with
        diagnostics := (g.withFindings found).diagnostics } := by
  have hpublishable := publishable_attempts hunit hbase turns output
  constructor
  case roots => exact fun root hroot => h.exactlyOne hunit hbase hroot
  case paths => exact h.nodup hpublishable
  case noConflict =>
    rw [h.report]
    intro root path hmem
    exact ofDeclarations_of_mem_attempts hunit hbase (mem_failuresOf.mp hmem)
  case holds =>
    intro root d hd
    exact h.read_pathFor hpublishable (mem_documentsOf.mpr ⟨root, mem_attempts_ok.mpr hd⟩)
  case frame =>
    intro location hlocation
    refine h.frame location fun d hd hheld => hlocation _ ?_
    rw [h.report]
    exact List.mem_map_of_mem (List.mem_filter.mpr ⟨hd, by simp [hheld]⟩)

/-- A run that meets no fault of the files agrees with runs in which every root has the same
result. -/
lemma agreement (h : Outcome g turns files output current held) (hunit : g.unit.Distinct)
    (hbase : g.config.baseUri = some base)
    (hsame : (g.generateAll other).2 = (g.generateAll turns).2) :
    Agreement g other files output (g.withFindings found) (g.emission turns files output).files
      { (g.emission turns files output).report with
        diagnostics := (g.withFindings found).diagnostics } := by
  have hpublishable := publishable_attempts hunit hbase turns output
  have hnext : (g.withFindings found).config.baseUri = some base := hbase
  have hattempts := attempts_eq hbase hsame
  constructor
  case compared =>
    have hcompared := checkAll_eq hbase other files output
    rw [comparison_congr hattempts] at hcompared
    refine ⟨_, hcompared, ?_, fun hfiles henters => ?_⟩
    · rw [h.report, comparison, compared_foldl h.compared]
      rfl
    · have hheld : ∀ d ∈ documentsOf (g.attempts turns),
          files.isCurrent ((g.publisher output).pathFor d) d.render = .ok (held d) := by
        intro d hd
        rw [h.compared d hd, h.agrees hfiles henters d hd]
      rw [comparison, compared_foldl hheld, h.report]
      exact ⟨rfl, rfl, rfl⟩
  case comparedAgain =>
    have hagain := checkAll_eq hnext other (g.emission turns files output).files output
    rw [comparison_withFindings, comparison_congr hattempts, h.comparison_eq hpublishable] at hagain
    refine ⟨_, hagain, rfl, rfl, ?_⟩
    rw [h.report]
  case emittedAgain =>
    obtain ⟨diagnostics, hagain⟩ :=
      emitAll_eq hnext other (g.emission turns files output).files output
    obtain ⟨hfiles, hwritten⟩ := h.emission_eq hpublishable
    rw [emission_withFindings, emission_congr hattempts] at hagain
    rw [hagain]
    refine ⟨_, Prod.ext hfiles rfl, ?_⟩
    exact hwritten

end Undisturbed.Outcome

/-- A run with a base URI gives a report, and so does a comparison, whatever turns their sessions
take.  If no failure in the report is one of the files, the files are as the report says, and other
runs agree with this one if every root has the same result in them.  Every root has the same result
in all runs if no two types that the roots lead to have one schema name. -/
theorem emitAll_agrees_checkAll (g : Generator) (declared : List (String × DeclarationFile))
    (base : BaseUri) (hunit : CompilationUnit.ofFiles declared = .ok g.unit)
    (hbase : g.config.baseUri = some base) (files : FileTree) (output : String)
    (turns : List ℕ) :
    ∃ next after report, g.emitAll files output turns = (next, after, .ok report) ∧
      (∀ other, ∃ found, (g.checkAll files output other).2 = .ok found) ∧
      ((∀ root fault, (root, .file fault) ∉ report.failures) →
        Emitted g turns files output after report ∧
        ∀ other, (g.generateAll other).2 = (g.generateAll turns).2 →
          Agreement g other files output next after report) ∧
      (g.Unambiguous base → ∀ other, (g.generateAll other).2 = (g.generateAll turns).2) := by
  have hdistinct := CompilationUnit.distinct_of_ofFiles hunit
  obtain ⟨diagnostics, hemit⟩ := emitAll_eq hbase turns files output
  refine ⟨_, _, _, hemit, fun other => ⟨_, checkAll_eq hbase other files output⟩, ?_, ?_⟩
  · intro hundisturbed
    obtain ⟨current, held, houtcome⟩ := Undisturbed.exists_outcome hdistinct hbase hundisturbed
    exact ⟨houtcome.emitted hdistinct hbase, fun other => houtcome.agreement hdistinct hbase⟩
  · intro hunambiguous other
    rw [generateAll_eq hbase, generateAll_eq hbase,
      results_eq_of_unambiguous hdistinct hbase hunambiguous,
      results_eq_of_unambiguous hdistinct hbase hunambiguous]

/-! ### Two documents -/

/-- A file that declares two types with documents and nothing else. -/
def twinFile : DeclarationFile where
  types := [{ name := "A", schema := some {} }, { name := "B", schema := some {} }]

/-- The generator of two documents. -/
def twins : Generator where
  unit := { types := twinFile.declaredTypes "" }
  config := { baseUri := some ⟨"https://example.com"⟩ }

/-- The document of one of the two types. -/
def twinDocument (name : String) : Document where
  schemaName := name
  id := ⟨"https://example.com/" ++ name ++ ".schema.json"⟩
  draft := .draft202012
  root := .object true [] [] [] none { title := some name }
  definitions := []

/-- A directory that holds both documents. -/
def twinFiles : FileTree where
  entries := [(["b"], .directory), (["b", "schemas"], .directory)] ++
    ["A", "B"].map fun name =>
      (["b", "schemas", name ++ ".schema.json"], .file (.text (twinDocument name).render))

/-- The two types are distinct. -/
lemma ofFiles_twins : CompilationUnit.ofFiles [("", twinFile)] = .ok twins.unit := rfl

/-- The two types have different schema names. -/
lemma unambiguous_twins : twins.Unambiguous ⟨"https://example.com"⟩ :=
  unambiguous_of_schemaName (by decide)

/-- Both types have their documents, whatever turns the sessions take. -/
lemma attempts_twins (turns : List ℕ) : twins.attempts turns =
    ["A", "B"].map fun name => (.topLevel "" name, .ok (twinDocument name)) := by
  rw [attempts, results_eq_of_unambiguous (CompilationUnit.distinct_of_ofFiles ofFiles_twins) rfl
    unambiguous_twins]
  rfl

/-- There are two documents. -/
lemma documentsOf_twins (turns : List ℕ) :
    documentsOf (twins.attempts turns) = [twinDocument "A", twinDocument "B"] := by
  rw [attempts_twins]
  rfl

/-- None of the documents fails. -/
lemma failuresOf_twins (turns : List ℕ) : failuresOf (twins.attempts turns) = [] := by
  rw [attempts_twins]
  rfl

/-- The directories of the two documents stand in each other. -/
lemma wellFormed_twinFiles : twinFiles.WellFormed :=
  FileTree.wellFormed_of_entries (by decide) (by decide)

/-- The two documents are in their files. -/
lemma shows_twinFiles (turns : List ℕ) :
    ∀ d ∈ documentsOf (twins.attempts turns), shows twinFiles ["b", "schemas"] d = true := by
  have hfirst : twinFiles.entry? ["b", "schemas", (twinDocument "A").fileName] =
      some (.file (.text (twinDocument "A").render)) := rfl
  have hsecond : twinFiles.entry? ["b", "schemas", (twinDocument "B").fileName] =
      some (.file (.text (twinDocument "B").render)) := rfl
  rw [documentsOf_twins]
  simp [shows, hfirst, hsecond]

/-- The two documents can be published. -/
lemma publishable_twins (output : String) :
    Publishable (twins.publisher output) [twinDocument "A", twinDocument "B"] := by
  have hpublishable := publishable_attempts
    (CompilationUnit.distinct_of_ofFiles ofFiles_twins) rfl [] output
  rwa [documentsOf_twins] at hpublishable

/-- Two documents that are in their files already are left unchanged. -/
lemma report_twins (turns : List ℕ) : (twins.emission turns twinFiles "b").report =
    { unchanged := ["b/schemas/A.schema.json", "b/schemas/B.schema.json"] } := by
  have hready : twinFiles.Ready (twins.publisher "b").directory ["b", "schemas"] := ⟨rfl, rfl⟩
  have hpublishable := publishable_twins "b"
  rw [← documentsOf_twins turns] at hpublishable
  obtain ⟨-, hreport⟩ := @foldl_of_shows (twins.attempts turns)
    { publisher := twins.publisher "b", files := twinFiles } _ hready hpublishable
    (shows_twinFiles turns)
  rw [documentsOf_twins, failuresOf_twins] at hreport
  exact hreport

/-- Two documents that are in their files already are found current and left unchanged, when the
sessions take turns in one way and when they take them in another. -/
theorem twins_agree : CompilationUnit.ofFiles [("", twinFile)] = .ok twins.unit ∧
    twins.config.baseUri = some ⟨"https://example.com"⟩ ∧
    twins.Unambiguous ⟨"https://example.com"⟩ ∧
    ∃ next after report, twins.emitAll twinFiles "b" [1, 0, 1] = (next, after, .ok report) ∧
      (∀ root fault, (root, .file fault) ∉ report.failures) ∧
      Emitted twins [1, 0, 1] twinFiles "b" after report ∧
      (twins.generateAll [0, 1, 1]).2 = (twins.generateAll [1, 0, 1]).2 ∧
      Agreement twins [0, 1, 1] twinFiles "b" next after report ∧
      ∃ found, (twins.checkAll twinFiles "b" [0, 1, 1]).2 = .ok found ∧
        found.current = ["b/schemas/A.schema.json", "b/schemas/B.schema.json"] := by
  have hbase : twins.config.baseUri = some ⟨"https://example.com"⟩ := rfl
  refine ⟨ofFiles_twins, hbase, unambiguous_twins, ?_⟩
  obtain ⟨next, after, report, hemit, -, hagree, hsame⟩ :=
    emitAll_agrees_checkAll twins [("", twinFile)] ⟨"https://example.com"⟩ ofFiles_twins rfl
      twinFiles "b" [1, 0, 1]
  obtain ⟨diagnostics, hrun⟩ := emitAll_eq hbase [1, 0, 1] twinFiles "b"
  have hends := hrun.symm.trans hemit
  rw [report_twins] at hends
  have hreport := Except.ok.inj (congrArg (·.2.2) hends)
  have hundisturbed : ∀ root fault, (root, .file fault) ∉ report.failures := by
    rw [← hreport]
    exact fun _ _ => List.not_mem_nil
  have hunchanged : report.unchanged = ["b/schemas/A.schema.json", "b/schemas/B.schema.json"] := by
    rw [← hreport]
  have hturns := hsame unambiguous_twins [0, 1, 1]
  obtain ⟨hemitted, hothers⟩ := hagree hundisturbed
  have hagreement := hothers [0, 1, 1] hturns
  obtain ⟨found, hfound, -, hcompared⟩ := hagreement.compared
  have henters : twinFiles.Enters [] (Path.components (twins.publisher "b").directory) :=
    FileTree.enters_of_parent_not_mem (by decide)
  obtain ⟨hcurrent, -⟩ := hcompared wellFormed_twinFiles henters
  exact ⟨next, after, report, hemit, hundisturbed, hemitted, hturns, hagreement, found, hfound,
    hcurrent.trans hunchanged⟩

/-! ### A directory that is reached around a missing one -/

/-- The files of the two documents once the missing directory is made. -/
def detourFiles : FileTree := twinFiles.put ["x"] .directory

/-- Comparing finds neither of the documents. -/
lemma comparison_detour : twins.comparison [] twinFiles "x/../b" =
    { missing := ["x/../b/schemas/A.schema.json", "x/../b/schemas/B.schema.json"] } := by
  have hcompared : ∀ d ∈ documentsOf (twins.attempts []),
      twinFiles.isCurrent ((twins.publisher "x/../b").pathFor d) d.render = .ok false := by
    rw [documentsOf_twins]
    have hfirst : twinFiles.isCurrent ((twins.publisher "x/../b").pathFor (twinDocument "A"))
        (twinDocument "A").render = .ok false := rfl
    have hsecond : twinFiles.isCurrent ((twins.publisher "x/../b").pathFor (twinDocument "B"))
        (twinDocument "B").render = .ok false := rfl
    simp [hfirst, hsecond]
  rw [comparison, compared_foldl hcompared, documentsOf_twins, failuresOf_twins]
  rfl

/-- Publishing writes the first document and finds the second. -/
lemma report_detour : (twins.emission [] twinFiles "x/../b").report =
    { written := ["x/../b/schemas/A.schema.json"]
      unchanged := ["x/../b/schemas/B.schema.json"] } := by
  have hpublishable := publishable_twins "x/../b"
  have hready : detourFiles.Ready (twins.publisher "x/../b").directory ["b", "schemas"] :=
    ⟨rfl, rfl⟩
  have hentry : ∀ name ∈ ["A", "B"],
      detourFiles.entry? (["b", "schemas"] ++ [(twinDocument name).fileName]) =
        some (.file (.text (twinDocument name).render)) := by
    intro name hname
    rcases List.mem_pair.mp hname with rfl | rfl
    · rfl
    · rfl
  have hplace : detourFiles.entry? (["b", "schemas"] ++ [(twinDocument "A").fileName]) ≠
      some .directory := by
    rw [hentry "A" (by simp)]
    exact nofun
  let start : Emission := { publisher := twins.publisher "x/../b", files := twinFiles }
  let written := Emission.write { start with files := detourFiles } detourFiles ["b", "schemas"]
    (twinDocument "A")
  have hcurrent : twinFiles.isCurrent ((twins.publisher "x/../b").pathFor (twinDocument "A"))
      (twinDocument "A").render = .ok false := rfl
  have hmade : twinFiles.makeDirectories []
      (Path.components (twins.publisher "x/../b").directory) = .ok detourFiles := by
    have hcomponents : Path.components (twins.publisher "x/../b").directory =
        [.name "x", .parent, .name "b", .name "schemas"] := rfl
    rw [hcomponents]
    rfl
  have hfirst : emitChecked start (.topLevel "" "A", .ok (twinDocument "A")) = written :=
    emitChecked_of_makeDirectories (hpublishable.isName _ List.mem_cons_self)
      (hpublishable.new _ List.mem_cons_self) hcurrent hmade hready hplace
  have hthere : written.files.Ready written.publisher.directory ["b", "schemas"] :=
    hready.put hplace
  have hrest : Publishable written.publisher [twinDocument "B"] := hpublishable.tail
  have hshows : shows written.files ["b", "schemas"] (twinDocument "B") = true := by
    have hkept : shows written.files ["b", "schemas"] (twinDocument "B") =
        shows detourFiles ["b", "schemas"] (twinDocument "B") :=
      shows_put (hpublishable.fileName_ne _ List.mem_cons_self)
    rw [hkept, shows, hentry "B" (by simp)]
    simp
  have hsecond : emitChecked written (.topLevel "" "B", .ok (twinDocument "B")) =
      written.leave (twinDocument "B") := emitChecked_of_shows hthere hrest hshows
  have hrun : twins.emission [] twinFiles "x/../b" = written.leave (twinDocument "B") := by
    rw [← hsecond, ← hfirst, emission, attempts_twins]
    rfl
  have hpath : (twins.publisher "x/../b").pathFor (twinDocument "A") =
      "x/../b/schemas/A.schema.json" := rfl
  have hpath' : (twins.publisher "x/../b").pathFor (twinDocument "B") =
      "x/../b/schemas/B.schema.json" := rfl
  rw [hrun, ← hpath, ← hpath']
  rfl

/-! ### Two types with one schema name -/

/-- A file that declares two types with documents under one schema name. -/
def rivalFile : DeclarationFile where
  types :=
    [ { name := "A", schema := some { name := some "X" } },
      { name := "B", schema := some { name := some "X" },
        properties := [{ name := "p", type := .scalar .string }] } ]

/-- The generator of two types of which only one can have a document. -/
def rivals : Generator where
  unit := { types := rivalFile.declaredTypes "" }
  config := { baseUri := some ⟨"https://example.com"⟩ }

/-- The failure of the type that comes second. -/
def rivalCollision (first second : String) : Failure :=
  .collision ⟨"https://example.com/X.schema.json"⟩ (.topLevel "" first) (.topLevel "" second)

/-- The document of one of the two types. -/
def rivalDocument (name : String) (properties : List (String × Node)) : Document where
  schemaName := "X"
  id := ⟨"https://example.com/X.schema.json"⟩
  draft := .draft202012
  root := .object true [] properties (properties.map (·.1)) none { title := some name }
  definitions := []

/-- When the sessions run one after another, the first type has its document. -/
lemma attempts_rivals : rivals.attempts [] =
    [(.topLevel "" "A", .ok (rivalDocument "A" [])),
      (.topLevel "" "B", .error (rivalCollision "A" "B"))] := by
  rfl

/-- When the second session takes the first step, the second type has its document. -/
lemma attempts_rivals_of_turn : rivals.attempts [1] =
    [(.topLevel "" "A", .error (rivalCollision "B" "A")),
      (.topLevel "" "B", .ok (rivalDocument "B" [("p", .scalar .string {})]))] := by
  rfl

/-- The document of the first type is published. -/
lemma report_rivals : (rivals.emission [] {} "out").report =
    { written := ["out/schemas/X.schema.json"]
      failures := [(.topLevel "" "B", rivalCollision "A" "B")] } := by
  rw [emission, attempts_rivals]
  rfl

/-- The document of the second type is missed. -/
lemma comparison_rivals : rivals.comparison [1] {} "out" =
    { missing := ["out/schemas/X.schema.json"]
      failures := [(.topLevel "" "A", rivalCollision "B" "A")] } := by
  rw [comparison, attempts_rivals_of_turn]
  rfl

/-- The document of the second type is not the one that was published for the first. -/
lemma comparison_rivals_again :
    rivals.comparison [1] (rivals.emission [] {} "out").files "out" =
      { stale := ["out/schemas/X.schema.json"]
        failures := [(.topLevel "" "A", rivalCollision "B" "A")] } := by
  rw [comparison, emission, attempts_rivals, attempts_rivals_of_turn]
  rfl

/-! ### Runs that disagree -/

/-- The path of a directory may lead through one that is missing, so that comparing finds nothing;
but publishing makes what is missing for the first document, and then finds the second one.  And of
two types with one schema name, one fails when their documents are published and the other one when
they are compared, before and afterwards, if the sessions take other turns. -/
theorem runs_disagree :
    (twinFiles.WellFormed ∧ CompilationUnit.ofFiles [("", twinFile)] = .ok twins.unit ∧
      twins.config.baseUri = some ⟨"https://example.com"⟩ ∧
      ∃ next after report found, twins.emitAll twinFiles "x/../b" = (next, after, .ok report) ∧
        (twins.checkAll twinFiles "x/../b").2 = .ok found ∧
        report.failures = [] ∧ found.failures = [] ∧
        report.written = ["x/../b/schemas/A.schema.json"] ∧
        report.unchanged = ["x/../b/schemas/B.schema.json"] ∧
        found.current = [] ∧
        found.missing = ["x/../b/schemas/A.schema.json", "x/../b/schemas/B.schema.json"]) ∧
    (CompilationUnit.ofFiles [("", rivalFile)] = .ok rivals.unit ∧
      rivals.config.baseUri = some ⟨"https://example.com"⟩ ∧
      ∃ next after report found again, rivals.emitAll {} "out" = (next, after, .ok report) ∧
        (rivals.checkAll {} "out" [1]).2 = .ok found ∧
        (next.checkAll after "out" [1]).2 = .ok again ∧
        report.failures = [(.topLevel "" "B", rivalCollision "A" "B")] ∧
        found.failures = [(.topLevel "" "A", rivalCollision "B" "A")] ∧
        report.written = ["out/schemas/X.schema.json"] ∧
        again.stale = ["out/schemas/X.schema.json"]) := by
  constructor
  · have hbase : twins.config.baseUri = some ⟨"https://example.com"⟩ := rfl
    obtain ⟨diagnostics, hemit⟩ := emitAll_eq hbase [] twinFiles "x/../b"
    have hcheck := checkAll_eq hbase [] twinFiles "x/../b"
    rw [report_detour] at hemit
    rw [comparison_detour] at hcheck
    exact ⟨wellFormed_twinFiles, ofFiles_twins, hbase, _, _, _, _, hemit, hcheck, rfl, rfl, rfl,
      rfl, rfl, rfl⟩
  · have hbase : rivals.config.baseUri = some ⟨"https://example.com"⟩ := rfl
    obtain ⟨diagnostics, hemit⟩ := emitAll_eq hbase [] {} "out"
    have hcheck := checkAll_eq hbase [1] {} "out"
    have hnext : (rivals.withFindings diagnostics).config.baseUri =
        some ⟨"https://example.com"⟩ := hbase
    have hagain := checkAll_eq hnext [1] (rivals.emission [] {} "out").files "out"
    rw [report_rivals] at hemit
    rw [comparison_rivals] at hcheck
    rw [comparison_withFindings, comparison_rivals_again] at hagain
    exact ⟨rfl, hbase, _, _, _, _, _, hemit, hcheck, hagain, rfl, rfl, rfl, rfl⟩

end Generator

end SchemaCompiler
