import SchemaCompiler.Proofs.Uri.Canonical

/-!
# Canonical texts that are read

What is read of a text that is put together from canonical parts.  Nothing is trimmed from it and no
suffix begins in it (`Uri.parse_written`).  An authority and the settled path after it are read as
they are, except for the host (`Uri.afterSlashes_written_iff`, `Uri.afterFile_written_iff`), and so
is a path without an authority (`Uri.parse_setOff`).
-/

namespace SchemaCompiler

/-- Nothing is trimmed from a text without what is trimmed. -/
lemma Text.trimBoth_eq_self {p : Char → Bool} {cs : List Char} (h : ∀ c ∈ cs, p c = false) :
    Text.trimBoth p cs = cs := by
  have hself : ∀ ds : List Char, (∀ c ∈ ds, p c = false) → ds.dropWhile p = ds := by
    intro ds hds
    cases ds with
    | nil => rfl
    | cons d ds =>
      rw [List.dropWhile_cons_of_neg (Bool.eq_false_iff.mp (List.forall_mem_cons.mp hds).1)]
  rw [trimBoth, hself cs h, hself cs.reverse fun c hc => h c (List.mem_reverse.mp hc),
    List.reverse_reverse]

namespace Uri

variable {cs scheme : List Char} {kind : SchemeClass} {a : Authority} {segments : Segments}
  {uri : Uri} {c : Char}

/-! ### Visible texts -/

/-- A visible character is no margin, and it is not left out. -/
lemma of_isPathChar (h : isPathChar c = true) :
    isMargin c = false ∧ isIgnored c = false ∧ Text.isBlank c = false ∧ endsPath c = false := by
  have hvisible := (Bool.and_eq_true_iff.mp h).1
  have hlt : c.toNat < 128 := by
    simp only [isVisible, Bool.and_eq_true, decide_eq_true_eq] at hvisible
    omega
  exact of_ascii (P := fun c => isPathChar c = true → isMargin c = false ∧ isIgnored c = false ∧
    Text.isBlank c = false ∧ endsPath c = false) (by decide) hlt h

/-- A visible text is before a suffix as a whole. -/
lemma beforeSuffix_eq_self (h : ∀ c ∈ cs, isPathChar c = true) : beforeSuffix cs = cs :=
  List.takeWhile_eq_self_iff.mpr fun c hc => by simp [of_isPathChar (h c hc)]

/-- There is no suffix in a visible text. -/
lemma hasSuffixIn_eq_false (h : ∀ c ∈ cs, isPathChar c = true) : hasSuffixIn cs = false :=
  Bool.eq_false_iff.mpr fun hany => by
    obtain ⟨c, hc, hends⟩ := List.any_eq_true.mp hany
    rw [(of_isPathChar (h c hc)).2.2.2] at hends
    cases hends

/-- A visible text is read by the rules of its scheme. -/
theorem parse_written (hname : IsScheme scheme) (h : ∀ c ∈ cs, isPathChar c = true) :
    parse (scheme ++ ':' :: cs) =
      match SchemeClass.ofName scheme with
      | .file => afterFile cs
      | .special n => afterSlashes scheme (cs.dropWhile (SchemeClass.special n).isSlash)
      | .other => afterOtherScheme scheme cs := by
  have hall : ∀ c ∈ scheme ++ ':' :: cs, isPathChar c = true :=
    List.forall_mem_append.mpr ⟨hname.isPathChar, List.forall_mem_cons.mpr ⟨by decide, h⟩⟩
  have htrim : Text.trimBoth isMargin (scheme ++ ':' :: cs) = scheme ++ ':' :: cs :=
    Text.trimBoth_eq_self fun c hc => (of_isPathChar (hall c hc)).1
  have hfilter : (scheme ++ ':' :: cs).filter (fun c => !isIgnored c) = scheme ++ ':' :: cs :=
    List.filter_eq_self.mpr fun c hc => by simp [of_isPathChar (hall c hc)]
  cases hclass : SchemeClass.ofName scheme <;>
    simp only [parse, htrim, hfilter, hname.readScheme, hclass]

/-! ### Paths -/

/-- Segments are written after a slash, or nothing is. -/
lemma segmentsText_eq_cons (h : segments ≠ []) :
    segmentsText segments = '/' :: (segmentsText segments).drop 1 := by
  obtain ⟨segment, rest, rfl⟩ := List.exists_cons_of_ne_nil h
  rfl

/-- Segments are written. -/
lemma segmentsText_ne_nil (h : segments ≠ []) : segmentsText segments ≠ [] :=
  segmentsText_eq_cons h ▸ List.cons_ne_nil _ _

/-- Where settled segments are written after an authority, the path is made of them. -/
lemma pathAfterAuthority_written (h : IsPath kind segments) :
    pathAfterAuthority kind (segmentsText segments) = segmentsText segments := by
  have hafter : ∀ cs, pathAfterAuthority kind ('/' :: cs) = segmentsText (readSegments kind cs) :=
    fun _ => rfl
  rw [segmentsText_eq_cons h.ne_nil, hafter, readSegments_segmentsText h,
    ← segmentsText_eq_cons h.ne_nil]

/-- What is cut off before a slash is cut off before the segments of a path. -/
lemma takeWhile_written {p : Char → Bool} (hcs : ∀ c ∈ cs, p c = true) (hslash : p '/' = false)
    (segments : Segments) : (cs ++ segmentsText segments).takeWhile p = cs ∧
      (cs ++ segmentsText segments).dropWhile p = segmentsText segments := by
  rw [List.takeWhile_append_of_pos hcs, List.dropWhile_append_of_pos hcs]
  cases segments with
  | nil => exact ⟨List.append_nil _, rfl⟩
  | cons segment rest =>
    have hneg := Bool.eq_false_iff.mp hslash
    rw [segmentsText_eq_cons (List.cons_ne_nil segment rest), List.takeWhile_cons_of_neg hneg,
      List.dropWhile_cons_of_neg hneg, List.append_nil]
    exact ⟨rfl, rfl⟩

/-! ### Authorities -/

/-- An authority and settled segments are read as they are, except for the host. -/
theorem afterSlashes_written_iff (h : IsAuthority (SchemeClass.ofName scheme) a)
    (hsegments : ∀ segment ∈ segments, IsSettled (SchemeClass.ofName scheme) segment) :
    afterSlashes scheme (a.text ++ segmentsText segments) = .ok uri ↔
      ∃ host, readHost (SchemeClass.ofName scheme) a.host = .ok host ∧
        uri = ⟨scheme, some ⟨a.userinfo, host, a.port⟩,
          pathAfterAuthority (SchemeClass.ofName scheme) (segmentsText segments), true, false⟩ := by
  have hvisible := isPathChar_segmentsText hsegments
  obtain ⟨htake, hdrop⟩ := takeWhile_written
    (p := fun c => !endsAuthority (SchemeClass.ofName scheme) c)
    (fun c hc => by simp [h.endsAuthority c hc]) (by simp [endsAuthority, SchemeClass.isSlash])
    segments
  unfold afterSlashes
  dsimp only
  rw [htake, hdrop, beforeSuffix_eq_self hvisible, hasSuffixIn_eq_false hvisible, bind_eq_ok_iff]
  constructor
  · rintro ⟨b, hb, hread⟩
    obtain ⟨hhost, huser, hport⟩ := h.readAuthority_text_iff.mp hb
    exact ⟨b.host, hhost, by rw [← pure_eq_ok_iff.mp hread, ← huser, ← hport]⟩
  · rintro ⟨host, hhost, rfl⟩
    exact ⟨⟨a.userinfo, host, a.port⟩, h.readAuthority_text_iff.mpr ⟨hhost, rfl, rfl⟩, rfl⟩

/-- There is no slash in an authority. -/
lemma ne_slash_of_mem_text (h : IsAuthority kind a) : ∀ c ∈ a.text, c ≠ '/' := by
  intro c hc
  rintro rfl
  exact absurd (h.endsAuthority '/' hc) (by simp [endsAuthority, SchemeClass.isSlash])

/-- What is written after two slashes is read as it is written there. -/
lemma parse_slashes (hname : IsScheme scheme) (hkind : SchemeClass.ofName scheme ≠ .file)
    (ha : IsAuthority (SchemeClass.ofName scheme) a)
    (h : ∀ segment ∈ segments, IsSettled (SchemeClass.ofName scheme) segment) :
    Uri.parse (scheme ++ ':' :: '/' :: '/' :: (a.text ++ segmentsText segments)) =
      afterSlashes scheme (a.text ++ segmentsText segments) := by
  have hvisible : ∀ c ∈ '/' :: '/' :: (a.text ++ segmentsText segments), isPathChar c = true := by
    refine List.forall_mem_cons.mpr ⟨by decide, List.forall_mem_cons.mpr ⟨by decide, ?_⟩⟩
    exact List.forall_mem_append.mpr ⟨ha.isPathChar, isPathChar_segmentsText h⟩
  rw [parse_written hname hvisible]
  split
  · next hfile => exact absurd hfile hkind
  · next n hspecial =>
    -- More slashes would be left out, but an authority begins with none.
    have hne : a.text ≠ [] := by
      intro hnil
      have hrules := (ha.lacksHost (ha.text_eq_nil_iff.mp hnil)).2.2
      rw [hspecial] at hrules
      cases hrules
    obtain ⟨c, more, htext⟩ := List.exists_cons_of_ne_nil hne
    have hc : (SchemeClass.special n).isSlash c = false := by
      have hends := ha.endsAuthority c (htext ▸ List.mem_cons_self)
      rw [hspecial, endsAuthority, Bool.or_eq_false_iff] at hends
      exact hends.2
    rw [htext, List.cons_append, List.dropWhile_cons_of_pos rfl, List.dropWhile_cons_of_pos rfl,
      List.dropWhile_cons_of_neg (Bool.eq_false_iff.mp hc)]
  · rfl

/-! ### Paths without an authority -/

/-- A path that starts with two slashes is set off. -/
def setOff : List Char → List Char
  | '/' :: '/' :: rest => '/' :: '.' :: '/' :: '/' :: rest
  | path => path

/-- A path is set off by a slash and a point, or not at all. -/
lemma setOff_eq_or (path : List Char) : setOff path = path ∨ setOff path = '/' :: '.' :: path := by
  unfold setOff
  split
  · exact Or.inr rfl
  · exact Or.inl rfl

/-- The text of a URI without an authority. -/
lemma text_rooted (scheme path : List Char) (hierarchical hasSuffix : Bool) :
    Uri.text ⟨scheme, none, path, hierarchical, hasSuffix⟩ = scheme ++ ':' :: setOff path := by
  fun_cases setOff path with
  | case1 rest => rfl
  | case2 _ hslashes =>
    unfold Uri.text
    dsimp only
    split
    · next rest => exact absurd rfl (hslashes rest)
    · rfl

/-- Segments of which the first is not empty start with one slash. -/
lemma setOff_segmentsText (hc : c ≠ '/') (cs : List Char) (rest : Segments) :
    setOff (segmentsText ((c :: cs) :: rest)) = segmentsText ((c :: cs) :: rest) := by
  unfold setOff
  split
  · next h => exact absurd (List.cons.inj (List.cons.inj h).2).1 hc
  · rfl

/-- After a single point, settled segments are read as they are. -/
lemma readSegments_point (h : IsPath .other segments) :
    readSegments .other ('.' :: segmentsText segments) = segments := by
  have hpieces : Text.splitOn SchemeClass.other.isSlash (['.'] ++ segmentsText segments) =
      ['.'] :: segments :=
    splitOn_append_segmentsText (forall_mem_of_all (by decide)) fun segment hsegment =>
      (h.settled segment hsegment).noSlash
  have hfirst : resolveSegments .other [] (['.'] :: segments) =
      resolveSegments .other [] segments := by
    obtain ⟨segment, rest, rfl⟩ := List.exists_cons_of_ne_nil h.ne_nil
    rfl
  have hread : readSegments .other ('.' :: segmentsText segments) =
      resolveSegments .other [] (Text.splitOn SchemeClass.other.isSlash
        (['.'] ++ segmentsText segments)) := rfl
  rw [hread, hpieces, hfirst, resolveSegments_of_settled h.settled, List.nil_append]

/-- One slash begins a path. -/
lemma afterOtherScheme_slash (h : ∀ c ∈ cs, isPathChar c = true) (hne : ∀ rest, cs ≠ '/' :: rest) :
    afterOtherScheme scheme ('/' :: cs) =
      .ok ⟨scheme, none, segmentsText (readSegments .other cs), true, false⟩ := by
  unfold afterOtherScheme
  split
  · next heq => exact absurd (List.cons.inj heq).2 (hne _)
  · next heq =>
    obtain rfl := (List.cons.inj heq).2
    rw [beforeSuffix_eq_self h, hasSuffixIn_eq_false h]
  · next hone => exact absurd rfl (hone cs)

/-- A path without an authority is read as it is written. -/
theorem afterOtherScheme_written (h : IsPath .other segments) :
    afterOtherScheme scheme (setOff (segmentsText segments)) =
      .ok ⟨scheme, none, segmentsText segments, true, false⟩ := by
  have hvisible := isPathChar_segmentsText h.settled
  have hread := readSegments_segmentsText h
  cases segments with
  | nil => exact absurd rfl h.ne_nil
  | cons segment rest =>
    cases segment with
    | nil =>
      cases rest with
      | nil => rfl
      | cons next rest =>
        have hpoint : ∀ c ∈ '.' :: segmentsText ([] :: next :: rest), isPathChar c = true :=
          List.forall_mem_cons.mpr ⟨by decide, hvisible⟩
        have hset : setOff (segmentsText ([] :: next :: rest)) =
            '/' :: '.' :: segmentsText ([] :: next :: rest) := rfl
        rw [hset, afterOtherScheme_slash hpoint (by simp), readSegments_point h]
    | cons c cs =>
      have hc : c ≠ '/' := by
        rintro rfl
        exact absurd ((h.settled _ List.mem_cons_self).noSlash '/' List.mem_cons_self) (by decide)
      have hdropped : ∀ d ∈ (segmentsText ((c :: cs) :: rest)).drop 1, isPathChar d = true :=
        fun d hd => hvisible d (List.drop_subset _ _ hd)
      have hcons := segmentsText_eq_cons (List.cons_ne_nil (c :: cs) rest)
      rw [setOff_segmentsText hc, hcons, afterOtherScheme_slash hdropped, hread, ← hcons]
      exact fun more hmore => absurd (List.cons.inj hmore).1 hc

/-- What is written without an authority is read as it is written. -/
lemma parse_setOff (hname : IsScheme scheme) (hkind : SchemeClass.ofName scheme = .other)
    (h : IsPath .other segments) : Uri.parse (scheme ++ ':' :: setOff (segmentsText segments)) =
      .ok ⟨scheme, none, segmentsText segments, true, false⟩ := by
  have hvisible : ∀ c ∈ setOff (segmentsText segments), isPathChar c = true := by
    have hpath := isPathChar_segmentsText h.settled
    rcases setOff_eq_or (segmentsText segments) with hset | hset
    · rw [hset]
      exact hpath
    · rw [hset]
      exact List.forall_mem_cons.mpr ⟨by decide, List.forall_mem_cons.mpr ⟨by decide, hpath⟩⟩
  rw [parse_written hname hvisible, hkind]
  exact afterOtherScheme_written h

/-! ### Files -/

/-- The scheme of files. -/
lemma isScheme_file : IsScheme "file".toList where
  chars := forall_mem_of_all (by decide)
  lower := forall_mem_of_all (by decide)
  letter := ⟨'f', "ile".toList, rfl, by decide⟩

/-- Files have rules of their own. -/
lemma ofName_file : SchemeClass.ofName "file".toList ≠ .other := by
  decide

/-- A host is not the name of a drive. -/
lemma IsHost.isDrive_eq_false {host : List Char} (h : IsHost host) : isDrive host = false := by
  refine Bool.eq_false_iff.mpr fun hdrive => ?_
  obtain ⟨c, d, rfl, hc, rfl | rfl⟩ := isDrive_iff.mp hdrive
  · have hletter : c ≠ ':' ∧ c ≠ '[' :=
      of_continuesScheme (P := fun c => Text.isAsciiLetter c = true → c ≠ ':' ∧ c ≠ '[') (by decide)
        (continuesScheme_of_isAsciiLetter hc) hc
    have hspan := h.span [] (Or.inl rfl)
    simp [spanHost, hletter.1, hletter.2] at hspan
  · exact absurd (h.chars '|' (by simp)) (by decide)

/-- The URI of a file is read as it is written. -/
lemma fileUri_written {host : List Char} (hpath : segments = [] ∨ IsPath .file segments)
    (hdrives : host ≠ [] → segments.any isDrive = false) :
    fileUri host (segmentsText segments) = ⟨"file".toList, some ⟨[], host, none⟩,
      pathAfterAuthority .file (segmentsText segments), true, false⟩ := by
  have hlocal : ∀ drive : Bool, (host ≠ [] → drive = false) →
      (if drive then [] else host) = host := by
    intro drive hdrive
    cases drive with
    | false => rfl
    | true =>
      by_contra hne
      exact absurd (hdrive fun hnil => hne (by rw [hnil]; rfl)) nofun
  rcases hpath with rfl | hpath
  · have hnone := hlocal false fun _ => rfl
    exact congrArg
      (fun host => (⟨"file".toList, some ⟨[], host, none⟩, ['/'], true, false⟩ : Uri)) hnone
  · have hvisible := isPathChar_segmentsText hpath.settled
    have hread := readSegments_segmentsText hpath
    have hslash : ((segmentsText segments).take 1).any SchemeClass.file.isSlash = true := by
      rw [segmentsText_eq_cons hpath.ne_nil]
      rfl
    rw [pathAfterAuthority_written hpath]
    unfold fileUri
    simp only [beforeSuffix_eq_self hvisible, hasSuffixIn_eq_false hvisible, hslash, if_true, hread,
      hlocal _ hdrives]

/-- A file after two slashes is read as it is written, except for its host. -/
theorem afterFile_written_iff {host : List Char} (h : IsHost host) :
    afterFile ('/' :: '/' :: (host ++ segmentsText segments)) = .ok uri ↔
      ∃ machine, readFileHost host = .ok machine ∧
        uri = fileUri machine (segmentsText segments) := by
  have hhost : ∀ c ∈ host, (!(SchemeClass.file.isSlash c || endsPath c)) = true := by
    intro c hc
    have hchar := h.chars c hc
    have hends := (of_isPathChar (Bool.and_eq_true_iff.mp hchar).1).2.2.2
    have hslash : c ≠ '/' := by rintro rfl; exact absurd hchar (by decide)
    have hback : c ≠ '\\' := by rintro rfl; exact absurd hchar (by decide)
    rw [hends, isSlash_eq_false hslash hback]
    rfl
  obtain ⟨htake, hdrop⟩ := takeWhile_written hhost rfl segments
  have hslashes : (SchemeClass.file.isSlash '/' && SchemeClass.file.isSlash '/') = true := rfl
  unfold afterFile
  dsimp only
  rw [if_pos hslashes, htake, hdrop, h.isDrive_eq_false, if_neg Bool.false_ne_true, bind_eq_ok_iff]
  constructor
  · rintro ⟨machine, hmachine, hread⟩
    exact ⟨machine, hmachine, (pure_eq_ok_iff.mp hread).symm⟩
  · rintro ⟨machine, hmachine, rfl⟩
    exact ⟨machine, hmachine, rfl⟩

/-- The host of a file is read as it is if the name of a machine is. -/
lemma readFileHost_self_iff {host : List Char} (h : host = [] ∨ ∃ cs, Host.canonical cs = .ok host)
    (hremote : host ≠ "localhost".toList) : readFileHost host = .ok host ↔
      (host ≠ [] → host.head? ≠ some '[' → Host.canonical host = .ok host) := by
  by_cases hnil : host = []
  · rw [hnil]
    exact iff_of_true rfl (absurd rfl)
  · have hself : readFileHost host = .ok host ↔ Host.canonical host = .ok host := by
      rw [readFileHost, if_neg (by simpa using hnil), bind_eq_ok_iff]
      simp only [pure_eq_ok_iff]
      constructor
      · rintro ⟨written, hwritten, hsame⟩
        split at hsame
        · exact absurd hsame.symm hnil
        · rw [hwritten, hsame]
      · exact fun hread => ⟨host, hread, if_neg hremote⟩
    have hname : readHost .file host = .ok host ↔ _ := readHost_self_iff (h.resolve_left hnil)
    rw [hself, forall_prop_of_true hnil]
    exact hname.trans (forall_prop_of_true rfl)

end Uri

end SchemaCompiler
