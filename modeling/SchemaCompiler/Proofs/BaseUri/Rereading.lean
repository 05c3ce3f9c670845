import SchemaCompiler.Proofs.BaseUri.Trimming

/-!
# Base URIs that are read again

A base is the text of a URI without the slashes at its end.  Read again it gives itself, if the host
is read as it is and if more was left of the URI than its scheme (`BaseUri.parse_again`): the
slashes at the end can be the ones that made the path a sequence of segments, and what is left of
them is no base.
-/

namespace SchemaCompiler

namespace Uri

/-- The name of a machine in a URI is read as it is. -/
def KeepsName (uri : Uri) : Prop :=
  ∀ a ∈ uri.authority, (SchemeClass.ofName uri.scheme).isSpecial = true → a.host ≠ [] →
    a.host.head? ≠ some '[' → Host.canonical a.host = .ok a.host

/-- A URI with nothing but slashes after a scheme without rules of its own. -/
def IsBare (uri : Uri) : Prop :=
  SchemeClass.ofName uri.scheme = .other ∧ (∀ a ∈ uri.authority, a.host = []) ∧
    ∀ c ∈ uri.path, c = '/'

end Uri

namespace BaseUri

open Uri

variable {cs scheme : List Char} {a : Authority} {segments : Segments}

/-! ### Texts that give themselves -/

/-- A text that is read as a URI of which it is the base. -/
def Restores (cs : List Char) : Prop :=
  ∃ uri, Uri.parse cs = .ok uri ∧ uri.hierarchical = true ∧ uri.hasSuffix = false ∧
    dropSlashes uri.text = cs

/-- What a visible text gives as a base. -/
lemma parse_ofList (h : ∀ c ∈ cs, isPathChar c = true) : parse (String.ofList cs) = (do
    let uri ← Uri.parse cs
    if !uri.hierarchical then throw .opaquePath
    if uri.hasSuffix then throw .queryOrFragment
    return ⟨String.ofList (dropSlashes uri.text)⟩) := by
  have htrim : Text.trimBoth Text.isBlank cs = cs :=
    Text.trimBoth_eq_self fun c hc => (of_isPathChar (h c hc)).2.2.1
  rw [parse, String.toList_ofList, htrim]

/-- A visible text is its own base exactly if it is the base of what it is read as. -/
lemma parse_ofList_iff (h : ∀ c ∈ cs, isPathChar c = true) :
    parse (String.ofList cs) = .ok ⟨String.ofList cs⟩ ↔ Restores cs := by
  rw [parse_ofList h, bind_eq_ok_iff]
  simp only [unless_eq_ok_iff, pure_eq_ok_iff, Bool.not_eq_true', Bool.not_eq_false,
    Bool.not_eq_true, BaseUri.mk.injEq, String.ofList_inj]
  rfl

/-! ### URIs with an authority -/

/-- A base with an authority is its own base exactly if its host is read as it is. -/
lemma restores_slashes_iff (hname : IsScheme scheme) (hkind : SchemeClass.ofName scheme ≠ .file)
    (ha : IsAuthority (SchemeClass.ofName scheme) a)
    (hpath : segments = [] ∨ IsPath (SchemeClass.ofName scheme) segments)
    (hne : a.host ≠ [] ∨ kept segments ≠ []) :
    Restores (scheme ++ ':' :: '/' :: '/' :: (a.text ++ segmentsText (kept segments))) ↔
      readHost (SchemeClass.ofName scheme) a.host = .ok a.host := by
  have hsettled : ∀ segment ∈ kept segments, IsSettled (SchemeClass.ofName scheme) segment := by
    rcases hpath with rfl | hpath
    · exact List.forall_mem_nil _
    · exact isSettled_kept hpath.settled
  have htext : ∀ host, readHost (SchemeClass.ofName scheme) a.host = .ok host →
      dropSlashes (Uri.text ⟨scheme, some ⟨a.userinfo, host, a.port⟩,
        pathAfterAuthority (SchemeClass.ofName scheme) (segmentsText (kept segments)), true,
          false⟩) = scheme ++ ':' :: '/' :: '/' ::
            ((a.userinfo ++ (host ++ portText a.port)) ++ segmentsText (kept segments)) := by
    intro host hhost
    have hread : readAuthority (SchemeClass.ofName scheme) a.text [] =
        .ok ⟨a.userinfo, host, a.port⟩ :=
      ha.readAuthority_text_iff.mpr ⟨hhost, rfl, rfl⟩
    have hb := isAuthority_readAuthority hread
    have hdropped := dropSlashes_pathAfterAuthority hpath
    rw [dropSlashes_text (ne_slash_of_mem_text hb), hdropped, text_eq]
    refine hne.imp (fun hhostne hnil => ?_) fun hkept => ?_
    · have hempty : host = [] := hb.text_eq_nil_iff.mp hnil
      exact hhostne (eq_nil_of_readHost (hempty ▸ hhost)).1
    · exact hdropped.symm ▸ segmentsText_ne_nil hkept
  unfold Restores
  rw [parse_slashes hname hkind ha hsettled]
  simp only [afterSlashes_written_iff ha hsettled]
  constructor
  · rintro ⟨_, ⟨host, hhost, rfl⟩, -, -, hsame⟩
    rw [htext host hhost, text_eq] at hsame
    have hparts := List.append_cancel_right (List.cons.inj (List.cons.inj (List.cons.inj
      (List.append_cancel_left hsame)).2).2).2
    rw [hhost, List.append_cancel_right (List.append_cancel_left hparts)]
  · intro hhost
    refine ⟨_, ⟨a.host, hhost, rfl⟩, rfl, rfl, ?_⟩
    rw [htext a.host hhost, text_eq]

/-- The host of a URI with an authority is the only one. -/
lemma keepsName_iff {uri : Uri} (h : uri.authority = some a) : uri.KeepsName ↔
    ((SchemeClass.ofName uri.scheme).isSpecial = true → a.host ≠ [] → a.host.head? ≠ some '[' →
      Host.canonical a.host = .ok a.host) := by
  unfold KeepsName
  rw [h]
  exact ⟨fun hall => hall a rfl, fun hone b hb => Option.some.inj hb ▸ hone⟩

/-- The base of a URI with an authority is its own base exactly if the host is read as it is. -/
lemma restores_placed_iff (hname : IsScheme scheme) (hkind : SchemeClass.ofName scheme ≠ .file)
    (ha : IsAuthority (SchemeClass.ofName scheme) a)
    (hpath : segments = [] ∨ IsPath (SchemeClass.ofName scheme) segments)
    (hne : a.host ≠ [] ∨ kept segments ≠ []) (hierarchical hasSuffix : Bool) :
    Restores (dropSlashes (Uri.text
        ⟨scheme, some a, segmentsText segments, hierarchical, hasSuffix⟩)) ↔
      KeepsName ⟨scheme, some a, segmentsText segments, hierarchical, hasSuffix⟩ := by
  have hsettled : ∀ segment ∈ segments, IsSettled (SchemeClass.ofName scheme) segment := by
    rcases hpath with rfl | hpath
    · exact List.forall_mem_nil _
    · exact hpath.settled
  have hdropped := dropSlashes_segmentsText hsettled
  have hwritten : a.text ≠ [] ∨ dropSlashes (segmentsText segments) ≠ [] := by
    refine hne.imp (fun hhost hnil => hhost (ha.text_eq_nil_iff.mp hnil)) fun hsome => ?_
    exact hdropped.symm ▸ segmentsText_ne_nil hsome
  rw [dropSlashes_text (ne_slash_of_mem_text ha) hwritten, hdropped,
    restores_slashes_iff hname hkind ha hpath hne, keepsName_iff rfl, readHost_self_iff ha.host]
  refine forall_congr' fun hspecial => ⟨fun hname _ => hname, fun hname => hname fun hnil => ?_⟩
  have hrules := (ha.lacksHost hnil).2.2
  rw [hspecial] at hrules
  cases hrules

/-! ### Files -/

/-- The base of the files of the local machine is its own base. -/
lemma restores_file : Restores ("file".toList ++ [':']) := by
  have hlocal : fileUri [] (segmentsText []) = _ := fileUri_written (Or.inl rfl) (absurd rfl)
  refine ⟨fileUri [] [], ?_, ?_, ?_, ?_⟩
  · rw [parse_written isScheme_file (List.forall_mem_nil _)]
    rfl
  · exact congrArg Uri.hierarchical hlocal
  · exact congrArg Uri.hasSuffix hlocal
  · exact (congrArg (fun uri => dropSlashes (Uri.text uri)) hlocal).trans (by decide)

/-- What the base of files is read as: whatever their host is read as, with the segments that are
left. -/
lemma fileUri_kept {host machine : List Char} (hmachine : readFileHost host = .ok machine)
    (hdrives : host ≠ [] → segments.any isDrive = false) (hpath : IsPath .file segments) :
    fileUri machine (segmentsText (kept segments)) = ⟨"file".toList, some ⟨[], machine, none⟩,
      pathAfterAuthority .file (segmentsText (kept segments)), true, false⟩ := by
  refine fileUri_written (or_iff_not_imp_left.mpr (isPath_kept hpath)) fun hremote => ?_
  have hhost : host ≠ [] := by
    rintro rfl
    exact hremote (pure_eq_ok_iff.mp hmachine).symm
  refine List.any_eq_false.mpr fun segment hsegment => ?_
  exact List.any_eq_false.mp (hdrives hhost) segment
    ((List.rdropWhile_prefix _ _).subset hsegment)

/-- The base of files is its own base exactly if their host is read as it is. -/
lemma restores_file_iff {host : List Char} (hhost : IsHost host)
    (hdrives : host ≠ [] → segments.any isDrive = false) (hpath : IsPath .file segments)
    (hne : host ≠ [] ∨ kept segments ≠ []) :
    Restores ("file".toList ++ ':' :: '/' :: '/' :: (host ++ segmentsText (kept segments))) ↔
      readFileHost host = .ok host := by
  have hvisible : ∀ c ∈ '/' :: '/' :: (host ++ segmentsText (kept segments)),
      isPathChar c = true := by
    refine List.forall_mem_cons.mpr ⟨by decide, List.forall_mem_cons.mpr ⟨by decide, ?_⟩⟩
    exact List.forall_mem_append.mpr ⟨fun c hc => (Bool.and_eq_true_iff.mp (hhost.chars c hc)).1,
      isPathChar_segmentsText (isSettled_kept hpath.settled)⟩
  have htext : ∀ machine, readFileHost host = .ok machine → machine ≠ [] ∨ kept segments ≠ [] →
      dropSlashes (fileUri machine (segmentsText (kept segments))).text =
        "file".toList ++ ':' :: '/' :: '/' :: (machine ++ segmentsText (kept segments)) := by
    intro machine hmachine hsome
    have hdropped := dropSlashes_pathAfterAuthority (Or.inr hpath)
    rw [fileUri_kept hmachine hdrives hpath,
      dropSlashes_text_host (isHost_file (of_readFileHost hmachine).1), hdropped]
    exact hsome.imp_right fun hkept => hdropped.symm ▸ segmentsText_ne_nil hkept
  unfold Restores
  rw [parse_written isScheme_file hvisible]
  change (∃ uri, afterFile _ = _ ∧ _) ↔ _
  simp only [afterFile_written_iff hhost]
  constructor
  · rintro ⟨_, ⟨machine, hmachine, rfl⟩, -, -, hsame⟩
    by_cases hsome : machine ≠ [] ∨ kept segments ≠ []
    · rw [htext machine hmachine hsome] at hsame
      have hparts := (List.cons.inj (List.cons.inj (List.cons.inj
        (List.append_cancel_left hsame)).2).2).2
      rw [hmachine, List.append_cancel_right hparts]
    · -- Without its host, nothing would be left of the base but the scheme.
      obtain ⟨rfl, hnone⟩ : machine = [] ∧ kept segments = [] := by
        simpa [not_or] using hsome
      have hshort : dropSlashes (fileUri [] (segmentsText [])).text = "file".toList ++ [':'] := by
        rw [fileUri_written (Or.inl rfl) (absurd rfl)]
        rfl
      rw [hnone, hshort] at hsame
      exact absurd (List.cons.inj (List.append_cancel_left hsame)).2 nofun
  · intro hread
    have huri := fileUri_kept hread hdrives hpath
    exact ⟨_, ⟨host, hread, rfl⟩, congrArg Uri.hierarchical huri, congrArg Uri.hasSuffix huri,
      htext host hread hne⟩

/-! ### URIs without an authority -/

/-- A base without an authority is its own base if the path has a segment. -/
lemma restores_rooted (hname : IsScheme scheme) (hkind : SchemeClass.ofName scheme = .other)
    (h : IsPath .other segments) (hne : kept segments ≠ []) :
    Restores (scheme ++ ':' :: setOff (segmentsText (kept segments))) := by
  have hkept := isPath_kept h hne
  refine ⟨_, parse_setOff hname hkind hkept, rfl, rfl, ?_⟩
  have hagain := kept_kept segments
  rw [dropSlashes_rooted hkept.settled (hagain.symm ▸ hne)]
  exact congrArg (fun rest => scheme ++ ':' :: setOff (segmentsText rest)) hagain

/-- A scheme alone is no base. -/
lemma parse_scheme (hname : IsScheme scheme) (hkind : SchemeClass.ofName scheme = .other) :
    parse (String.ofList (scheme ++ [':'])) = .error .opaquePath := by
  have hvisible : ∀ c ∈ scheme ++ [':'], isPathChar c = true :=
    List.forall_mem_append.mpr ⟨hname.isPathChar, forall_mem_of_all (by decide)⟩
  have hread : Uri.parse (scheme ++ [':']) = .ok ⟨scheme, none, [], false, false⟩ := by
    rw [parse_written hname (List.forall_mem_nil _), hkind]
    rfl
  rw [parse_ofList hvisible, hread]
  rfl

/-- A scheme, a slash and a point give the scheme alone as a base. -/
lemma parse_point (hname : IsScheme scheme) (hkind : SchemeClass.ofName scheme = .other) :
    parse (String.ofList (scheme ++ [':', '/', '.'])) = .ok ⟨String.ofList (scheme ++ [':'])⟩ := by
  have hpoint : ∀ c ∈ ['/', '.'], isPathChar c = true :=
    forall_mem_of_all (by decide)
  have hvisible : ∀ c ∈ scheme ++ [':', '/', '.'], isPathChar c = true :=
    List.forall_mem_append.mpr ⟨hname.isPathChar, forall_mem_of_all (by decide)⟩
  have hread : Uri.parse (scheme ++ [':', '/', '.']) = .ok ⟨scheme, none, ['/'], true, false⟩ := by
    rw [parse_written hname hpoint, hkind]
    rfl
  have hdropped : dropSlashes (Uri.text ⟨scheme, none, ['/'], true, false⟩) = scheme ++ [':'] := by
    have htext : Uri.text ⟨scheme, none, ['/'], true, false⟩ = (scheme ++ [':']) ++ ['/'] := by
      simp [Uri.text]
    rw [htext, dropSlashes_append_slashes (by decide)]
    exact List.rdropWhile_concat_neg _ _ _ (by decide)
  have hbase : parse (String.ofList (scheme ++ [':', '/', '.'])) =
      .ok ⟨String.ofList (dropSlashes (Uri.text ⟨scheme, none, ['/'], true, false⟩))⟩ := by
    rw [parse_ofList hvisible, hread]
    rfl
  rw [hbase, hdropped]

/-- Neither a scheme alone nor one with a point is its own base. -/
lemma not_restores (hname : IsScheme scheme) (hkind : SchemeClass.ofName scheme = .other) :
    ¬Restores (scheme ++ [':']) ∧ ¬Restores (scheme ++ [':', '/', '.']) := by
  have hvisible : ∀ more, (∀ c ∈ more, isPathChar c = true) →
      ∀ c ∈ scheme ++ more, isPathChar c = true :=
    fun _ hmore => List.forall_mem_append.mpr ⟨hname.isPathChar, hmore⟩
  constructor
  · intro hself
    have hok := (parse_ofList_iff (hvisible [':'] (forall_mem_of_all (by decide)))).mpr hself
    rw [parse_scheme hname hkind] at hok
    cases hok
  · intro hself
    have hvis := hvisible [':', '/', '.'] (forall_mem_of_all (by decide))
    have hok := (parse_ofList_iff hvis).mpr hself
    rw [parse_point hname hkind] at hok
    have hsame := String.ofList_inj.mp (BaseUri.mk.inj (Except.ok.inj hok))
    exact absurd (List.cons.inj (List.append_cancel_left hsame)).2 nofun

/-! ### Bases that are read again -/

/-- Of a bare URI the scheme is left, and a point where empty segments were set off. -/
lemma dropSlashes_of_isBare {uri : Uri} (h : IsCanonical uri) (hpath : uri.hierarchical = true)
    (hbare : uri.IsBare) : IsScheme uri.scheme ∧
      (dropSlashes uri.text = uri.scheme ++ [':'] ∨
        dropSlashes uri.text = uri.scheme ++ [':', '/', '.']) := by
  obtain ⟨hother, hnone, hslashes⟩ := hbare
  cases h with
  | file => exact absurd hother ofName_file
  | special _ hkind => exact nomatch hkind.symm.trans hother
  | placed name _ authority =>
    have hhost := authority.text_eq_nil_iff.mpr (hnone _ rfl)
    exact ⟨name, Or.inl (dropSlashes_text_nil hhost (dropSlashes_eq_nil_iff.mpr hslashes))⟩
  | rooted name _ path =>
    exact ⟨name, dropSlashes_rooted_nil path.settled ((kept_eq_nil_iff path.settled).mpr hslashes)
      _ _⟩
  | rootless => cases hpath

/-- A base is its own base exactly if the host is read as it is and more than a scheme is left. -/
theorem restores_iff {uri : Uri} (h : IsCanonical uri) (hpath : uri.hierarchical = true) :
    Restores (dropSlashes uri.text) ↔ uri.KeepsName ∧ ¬uri.IsBare := by
  by_cases hbare : uri.IsBare
  · obtain ⟨name, hleft⟩ := dropSlashes_of_isBare h hpath hbare
    obtain ⟨hscheme, hpoint⟩ := not_restores name hbare.1
    refine iff_of_false ?_ fun hboth => hboth.2 hbare
    rcases hleft with hleft | hleft
    · exact hleft ▸ hscheme
    · exact hleft ▸ hpoint
  rw [and_iff_left hbare]
  cases h with
  | @file host segments _ written remote drives path =>
    have hdropped := dropSlashes_segmentsText path.settled
    have hhost := isHost_file written
    rw [keepsName_iff rfl]
    by_cases hne : host ≠ [] ∨ kept segments ≠ []
    · have hwritten : host ≠ [] ∨ dropSlashes (segmentsText segments) ≠ [] :=
        hne.imp_right fun hsome => hdropped.symm ▸ segmentsText_ne_nil hsome
      rw [dropSlashes_text_host hhost hwritten, hdropped,
        restores_file_iff hhost drives path hne, readFileHost_self_iff written remote]
      exact ⟨fun hname _ => hname, fun hname => hname rfl⟩
    · obtain ⟨rfl, hnone⟩ : host = [] ∧ kept segments = [] := by
        simpa [not_or] using hne
      rw [dropSlashes_text_nil rfl (hdropped.trans (by rw [hnone]; rfl))]
      exact iff_of_true restores_file fun _ hhost => absurd rfl hhost
  | @special scheme n a segments _ name hkind authority path =>
    have hhost : a.host ≠ [] := fun hnil => nomatch (authority.lacksHost hnil).2.2
    rw [← hkind] at authority path
    exact restores_placed_iff name (hkind ▸ nofun) authority (Or.inr path) (Or.inl hhost) _ _
  | @placed scheme a segments _ name hkind authority path =>
    have hsettled : ∀ segment ∈ segments, IsSettled .other segment := by
      rcases path with rfl | path
      · exact List.forall_mem_nil _
      · exact path.settled
    have hne : a.host ≠ [] ∨ kept segments ≠ [] := by
      by_contra hnone
      obtain ⟨hhost, hnone⟩ : a.host = [] ∧ kept segments = [] := by
        simpa [not_or] using hnone
      exact hbare ⟨hkind, fun b hb => Option.some.inj hb ▸ hhost,
        (kept_eq_nil_iff hsettled).mp hnone⟩
    rw [← hkind] at authority path
    exact restores_placed_iff name (hkind ▸ nofun) authority path hne _ _
  | @rooted scheme segments _ name hkind path =>
    have hne : kept segments ≠ [] := fun hnone =>
      hbare ⟨hkind, nofun, (kept_eq_nil_iff path.settled).mp hnone⟩
    rw [dropSlashes_rooted path.settled hne]
    exact iff_of_true (restores_rooted name hkind path hne) nofun
  | rootless => cases hpath

/-- No base has a slash at its end.  It is read as itself exactly if the name of its machine is, and
if there is more in the URI than slashes after a scheme without rules of its own.  Where there is no
more, the base is the scheme, which is refused, or the scheme and a point, of which the scheme is
left when it is read again. -/
theorem parse_again {value : String} {base : BaseUri} {uri : Uri}
    (huri : Uri.parse (Text.trimBoth Text.isBlank value.toList) = .ok uri)
    (h : parse value = .ok base) :
    base.text.toList.getLast? ≠ some '/' ∧
      (parse base.text = .ok base ↔ uri.KeepsName ∧ ¬uri.IsBare) ∧
      (uri.IsBare → parse base.text = .error .opaquePath ∨
        ∃ last, parse base.text = .ok last ∧ base.text = last.text ++ "/." ∧
          parse last.text = .error .opaquePath) := by
  obtain ⟨again, hagain, h⟩ := bind_eq_ok_iff.mp h
  obtain rfl := Except.ok.inj (hagain.symm.trans huri)
  obtain ⟨hpath, h⟩ := unless_eq_ok_iff.mp h
  obtain ⟨-, h⟩ := unless_eq_ok_iff.mp h
  obtain rfl := pure_eq_ok_iff.mp h
  have hcanonical := isCanonical_parse huri
  have hhierarchical : again.hierarchical = true := by simpa using hpath
  have hvisible : ∀ c ∈ dropSlashes again.text, isPathChar c = true :=
    fun c hc => hcanonical.isPathChar hhierarchical c (dropSlashes_subset _ hc)
  refine ⟨?_, (parse_ofList_iff hvisible).trans (restores_iff hcanonical hhierarchical), ?_⟩
  · rw [String.toList_ofList]
    exact getLast_dropSlashes _
  · intro hbare
    obtain ⟨name, hleft | hleft⟩ := dropSlashes_of_isBare hcanonical hhierarchical hbare
    · exact Or.inl (hleft ▸ parse_scheme name hbare.1)
    · refine Or.inr ⟨⟨String.ofList (again.scheme ++ [':'])⟩, ?_, ?_, parse_scheme name hbare.1⟩
      · exact hleft ▸ parse_point name hbare.1
      · apply String.toList_injective
        simp [hleft]

/-- The root of a scheme is not read as itself, but a directory of a host is. -/
theorem parse_again_roots :
    (parse "foo:///" = .ok ⟨"foo:"⟩ ∧ parse "foo:" ≠ .ok ⟨"foo:"⟩) ∧
      parse "foo://Host/a/../b//" = .ok ⟨"foo://Host/b"⟩ ∧
        parse "foo://Host/b" = .ok ⟨"foo://Host/b"⟩ := by
  have hroot : parse "foo:///" = .ok ⟨"foo:"⟩ := by rfl
  have hrootUri : Uri.parse (Text.trimBoth Text.isBlank "foo:///".toList) =
      .ok ⟨"foo".toList, some ⟨[], [], none⟩, "/".toList, true, false⟩ := by rfl
  have hbare : IsBare ⟨"foo".toList, some ⟨[], [], none⟩, "/".toList, true, false⟩ :=
    ⟨by decide, by simp, forall_mem_of_all (by decide)⟩
  have hdirectory : parse "foo://Host/a/../b//" = .ok ⟨"foo://Host/b"⟩ := by rfl
  have hdirectoryUri : Uri.parse (Text.trimBoth Text.isBlank "foo://Host/a/../b//".toList) =
      .ok ⟨"foo".toList, some ⟨[], "Host".toList, none⟩, "/b//".toList, true, false⟩ := by rfl
  have hkeeps : KeepsName ⟨"foo".toList, some ⟨[], "Host".toList, none⟩, "/b//".toList, true,
      false⟩ := (keepsName_iff rfl).mpr fun hspecial => absurd hspecial (by decide)
  refine ⟨⟨hroot, fun hself => ?_⟩, hdirectory, ?_⟩
  · exact ((parse_again hrootUri hroot).2.1.mp hself).2 hbare
  · exact (parse_again hdirectoryUri hdirectory).2.1.mpr
      ⟨hkeeps, fun hbare => absurd (hbare.2.1 _ rfl) nofun⟩

end BaseUri

end SchemaCompiler
