import Mathlib.Data.List.DropRight
import SchemaCompiler.Proofs.Path
import SchemaCompiler.Proofs.Uri.Scheme

/-!
# Paths that are read twice

The segments that remain of a path are settled (`Uri.isPath_readSegments`): they hold no slash, they
are written as they are, and none of them is a dot segment, also not after its encoding.  So the
path that they make is read as the same segments (`Uri.readSegments_segmentsText`).
-/

namespace SchemaCompiler.Uri

variable {scheme : SchemeClass} {segment cs : List Char} {segments before : Segments} {c : Char}

/-! ### Encoded points -/

section Points

variable {encodes : Char → Bool}

/-- A character that is left alone is written before the rest. -/
lemma percentEncode_cons_of_false (hc : encodes c = false) (cs : List Char) :
    percentEncode encodes (c :: cs) = c :: percentEncode encodes cs := by
  rw [percentEncode, List.flatMap_cons, hc]
  rfl

/-- What an encoded text begins with, other than a percent sign, stood there before. -/
lemma eq_cons_of_percentEncode {written : List Char} (hpoint : encodes '.' = false)
    (hc : c ≠ '%') (h : percentEncode encodes cs = c :: written) :
    ∃ rest, cs = c :: rest ∧ percentEncode encodes rest = written := by
  cases cs with
  | nil => cases h
  | cons d rest =>
    cases hd : encodes d with
    | true =>
      obtain ⟨high, low, more, heq, -⟩ := exists_percentEncode_cons hd hpoint rest
      rw [heq] at h
      exact absurd (List.cons.inj h).1.symm hc
    | false =>
      rw [percentEncode_cons_of_false hd] at h
      obtain ⟨rfl, hrest⟩ := List.cons.inj h
      exact ⟨rest, rfl, hrest⟩

/-- Only an encoded point is read as another character. -/
lemma plainPoints_cons (h : ∀ rest, c = '%' → cs ≠ '2' :: 'e' :: rest ∧ cs ≠ '2' :: 'E' :: rest) :
    plainPoints (c :: cs) = c :: plainPoints cs := by
  rw [plainPoints]
  · rintro rest rfl rfl
    exact (h rest rfl).1 rfl
  · rintro rest rfl rfl
    exact (h rest rfl).2 rfl

/-- A text that is written as points alone had nothing to encode. -/
lemma percentEncode_eq_self_of_points (hencoding : ∀ c, isEncoding c = true → encodes c = false)
    (hpoint : encodes '.' = false) (hlower : encodes 'e' = false)
    (h : ∀ c ∈ plainPoints (percentEncode encodes cs), c = '.') :
    percentEncode encodes cs = cs := by
  have hpercent := hencoding '%' (by decide)
  have htwo := hencoding '2' (by decide)
  fun_induction plainPoints cs with
  | case1 rest ih =>
    simp only [percentEncode_cons_of_false, hpercent, htwo, hlower, plainPoints,
      List.forall_mem_cons] at h ⊢
    rw [ih h.2]
  | case2 rest ih =>
    have hupper := hencoding 'E' (by decide)
    simp only [percentEncode_cons_of_false, hpercent, htwo, hupper, plainPoints,
      List.forall_mem_cons] at h ⊢
    rw [ih h.2]
  | case3 c rest hsmall hcapital ih =>
    cases hc : encodes c with
    | true =>
      -- The percent sign of an encoded character is no point.
      obtain ⟨high, low, more, heq, hdigits⟩ := exists_percentEncode_cons hc hpoint rest
      rw [heq, plainPoints_cons] at h
      · exact absurd (List.forall_mem_cons.mp h).1 (by decide)
      · rintro rest -
        constructor
        · intro hwritten
          obtain ⟨hhigh, hlow⟩ := List.cons.inj hwritten
          exact hdigits ⟨hhigh, Or.inl (List.cons.inj hlow).1⟩
        · intro hwritten
          obtain ⟨hhigh, hlow⟩ := List.cons.inj hwritten
          exact hdigits ⟨hhigh, Or.inr (List.cons.inj hlow).1⟩
    | false =>
      rw [percentEncode_cons_of_false hc, plainPoints_cons] at h
      · rw [percentEncode_cons_of_false hc, ih (List.forall_mem_cons.mp h).2]
      · -- A percent sign before the digits of a point stood before them at first.
        rintro written rfl
        constructor
        · intro hwritten
          obtain ⟨more, rfl, hmore⟩ := eq_cons_of_percentEncode hpoint (by decide) hwritten
          obtain ⟨last, rfl, -⟩ := eq_cons_of_percentEncode hpoint (by decide) hmore
          exact hsmall last rfl rfl
        · intro hwritten
          obtain ⟨more, rfl, hmore⟩ := eq_cons_of_percentEncode hpoint (by decide) hwritten
          obtain ⟨last, rfl, -⟩ := eq_cons_of_percentEncode hpoint (by decide) hmore
          exact hcapital last rfl rfl
  | case4 => rfl

end Points

/-! ### Settled segments -/

/-- A segment that is read as it is written. -/
structure IsSettled (scheme : SchemeClass) (segment : List Char) : Prop where
  chars : ∀ c ∈ segment, isPathChar c = true
  noSlash : ∀ c ∈ segment, scheme.isSlash c = false
  written : writtenSegment scheme segment = segment
  notSingle : isSingleDot segment = false
  notDouble : isDoubleDot segment = false

/-- What encoded bytes are made of is left alone in a path. -/
lemma encodedInPath_of_isEncoding (h : isEncoding c = true) : encodedInPath c = false :=
  of_isEncoding (P := fun c => encodedInPath c = false) (by decide) h

/-- What is left alone in a path is visible, and no path ends at it. -/
lemma isPathChar_of_encodedInPath (h : encodedInPath c = false) : isPathChar c = true := by
  have hlt : c.toNat < 128 := by
    simp only [encodedInPath, isControl, Bool.or_eq_false_iff, decide_eq_false_iff_not] at h
    omega
  exact of_ascii (P := fun c => encodedInPath c = false → isPathChar c = true) (by decide) hlt h

/-- A slash is `/`, or a backslash where the scheme has rules of its own. -/
lemma isSlash_eq_false (hslash : c ≠ '/') (hback : c ≠ '\\') : scheme.isSlash c = false := by
  simp [SchemeClass.isSlash, hslash, hback]

/-- A drive is a letter and a colon or bar. -/
lemma isDrive_iff : isDrive segment = true ↔
    ∃ c d, segment = [c, d] ∧ Text.isAsciiLetter c = true ∧ (d = ':' ∨ d = '|') := by
  unfold isDrive
  split
  · simp
  · next h =>
    refine iff_of_false Bool.false_ne_true ?_
    rintro ⟨c, d, heq, -⟩
    exact h c d heq

/-- A letter is no slash and no percent sign. -/
lemma of_isAsciiLetter (h : Text.isAsciiLetter c = true) :
    isPathChar c = true ∧ c ≠ '/' ∧ c ≠ '\\' ∧ c ≠ '%' :=
  of_continuesScheme (P := fun c => Text.isAsciiLetter c = true →
    isPathChar c = true ∧ c ≠ '/' ∧ c ≠ '\\' ∧ c ≠ '%') (by decide)
    (continuesScheme_of_isAsciiLetter h) h

/-- The empty segment is settled. -/
lemma isSettled_nil : IsSettled scheme [] where
  chars := nofun
  noSlash := nofun
  written := by
    unfold writtenSegment
    rw [if_neg fun h => absurd h.2 (by decide)]
    rfl
  notSingle := rfl
  notDouble := rfl

/-- The name of a drive is settled. -/
lemma isSettled_drive (h : Text.isAsciiLetter c = true) : IsSettled .file [c, ':'] := by
  obtain ⟨hchar, hslash, hback, hpercent⟩ := of_isAsciiLetter h
  have hplain : plainPoints [c, ':'] = [c, ':'] := by
    rw [plainPoints_cons fun _ hc => absurd hc hpercent]
    rfl
  refine ⟨?_, ?_, ?_, ?_, ?_⟩
  · exact List.forall_mem_cons.mpr ⟨hchar, List.forall_mem_singleton.mpr (by decide)⟩
  · exact List.forall_mem_cons.mpr
      ⟨isSlash_eq_false hslash hback, List.forall_mem_singleton.mpr (by decide)⟩
  · unfold writtenSegment
    rw [if_pos ⟨rfl, isDrive_iff.mpr ⟨c, ':', rfl, h, Or.inl rfl⟩⟩]
    rfl
  · rw [isSingleDot, hplain]
    simp
  · rw [isDoubleDot, hplain]
    simp

/-- A segment that is written from a piece that is no dot segment is settled. -/
lemma isSettled_writtenSegment (hslash : ∀ c ∈ segment, scheme.isSlash c = false)
    (hsingle : isSingleDot segment = false) (hdouble : isDoubleDot segment = false) :
    IsSettled scheme (writtenSegment scheme segment) := by
  unfold writtenSegment
  split
  · next hdrive =>
    obtain ⟨rfl, hdrive⟩ := hdrive
    obtain ⟨c, d, rfl, hc, -⟩ := isDrive_iff.mp hdrive
    exact isSettled_drive hc
  · next hdrive =>
    have hencoding : ∀ c, isEncoding c = true → encodedInPath c = false :=
      fun _ => encodedInPath_of_isEncoding
    have hpoints : ∀ text : List Char, (∀ c ∈ text, c = '.') →
        plainPoints (percentEncode encodedInPath segment) = text →
          percentEncode encodedInPath segment = segment := by
      intro text htext heq
      refine percentEncode_eq_self_of_points hencoding (by decide) (by decide) ?_
      rwa [heq]
    refine ⟨?_, ?_, ?_, ?_, ?_⟩
    · intro c hc
      exact isPathChar_of_encodedInPath (encodes_eq_false hencoding hc)
    · intro c hc
      rcases of_mem_percentEncode hc with ⟨hc, -⟩ | hc
      · exact hslash c hc
      · exact isSlash_eq_false (of_isEncoding (P := fun c => c ≠ '/') (by decide) hc)
          (of_isEncoding (P := fun c => c ≠ '\\') (by decide) hc)
    · unfold writtenSegment
      rw [if_neg ?_, percentEncode_twice hencoding]
      -- An encoded text has a percent sign, and a drive has none.
      rintro ⟨hfile, hwritten⟩
      have hpoint : encodedInPath '.' = false := by decide
      rcases percentEncode_eq_self_or_mem hpoint segment with heq | hmem
      · exact hdrive ⟨hfile, heq ▸ hwritten⟩
      · obtain ⟨c, d, heq, hc, hd⟩ := isDrive_iff.mp hwritten
        rw [heq] at hmem
        rcases List.mem_cons.mp hmem with rfl | hmem
        · exact absurd hc (by decide)
        · rw [← List.mem_singleton.mp hmem] at hd
          exact absurd hd (by decide)
    · refine Bool.eq_false_iff.mpr fun hdot => ?_
      have heq := hpoints ['.'] (forall_mem_of_all (by decide)) (beq_iff_eq.mp hdot)
      rw [heq, hsingle] at hdot
      cases hdot
    · refine Bool.eq_false_iff.mpr fun hdot => ?_
      have heq := hpoints ['.', '.'] (forall_mem_of_all (by decide)) (beq_iff_eq.mp hdot)
      rw [heq, hdouble] at hdot
      cases hdot

/-! ### Settled paths -/

/-- The segments of a path that is read as it is written. -/
structure IsPath (scheme : SchemeClass) (segments : Segments) : Prop where
  ne_nil : segments ≠ []
  settled : ∀ segment ∈ segments, IsSettled scheme segment
  /-- Only the root of a `file` path begins with an empty segment. -/
  file : scheme = .file → segments = [[]] ∨ segments.head? ≠ some []

/-- Segments that remain are settled if those before are. -/
lemma isSettled_resolveSegments (hbefore : ∀ segment ∈ before, IsSettled scheme segment)
    (h : ∀ segment ∈ segments, ∀ c ∈ segment, scheme.isSlash c = false) :
    ∀ segment ∈ resolveSegments scheme before segments, IsSettled scheme segment := by
  have hlast : ∀ rest : Segments, ∀ segment ∈ (if rest.isEmpty then [[]] else [] : Segments),
      IsSettled scheme segment := by
    intro rest segment hsegment
    split at hsegment
    · exact List.mem_singleton.mp hsegment ▸ isSettled_nil
    · cases hsegment
  induction segments generalizing before with
  | nil => exact hbefore
  | cons segment rest ih =>
    obtain ⟨hsegment, hrest⟩ := List.forall_mem_cons.mp h
    unfold resolveSegments
    dsimp only
    split
    · have hdropped : ∀ other ∈ dropSegment before, IsSettled scheme other := by
        intro other hother
        unfold dropSegment at hother
        split at hother
        · exact hbefore other hother
        · exact hbefore other (List.dropLast_subset _ hother)
      exact ih (List.forall_mem_append.mpr ⟨hdropped, hlast rest⟩) hrest
    · next hdouble =>
      split
      · exact ih (List.forall_mem_append.mpr ⟨hbefore, hlast rest⟩) hrest
      · next hsingle =>
        refine ih (List.forall_mem_append.mpr ⟨hbefore, ?_⟩) hrest
        exact List.forall_mem_singleton.mpr (isSettled_writtenSegment hsegment
          (Bool.eq_false_iff.mpr hsingle) (Bool.eq_false_iff.mpr hdouble))

/-- Of some segments some remain: a dot segment at the end leaves an empty one. -/
lemma resolveSegments_ne_nil (h : segments ≠ []) : resolveSegments scheme before segments ≠ [] := by
  induction segments generalizing before with
  | nil => exact absurd rfl h
  | cons segment rest ih =>
    unfold resolveSegments
    dsimp only
    cases rest with
    | nil =>
      split
      · simp [resolveSegments]
      · split
        · simp [resolveSegments]
        · simp [resolveSegments]
    | cons next rest =>
      split
      · exact ih (List.cons_ne_nil _ _)
      · split
        · exact ih (List.cons_ne_nil _ _)
        · exact ih (List.cons_ne_nil _ _)

/-- Settled segments all remain as they are. -/
lemma resolveSegments_of_settled (h : ∀ segment ∈ segments, IsSettled scheme segment) :
    resolveSegments scheme before segments = before ++ segments := by
  induction segments generalizing before with
  | nil => rw [resolveSegments, List.append_nil]
  | cons segment rest ih =>
    obtain ⟨hsegment, hrest⟩ := List.forall_mem_cons.mp h
    unfold resolveSegments
    dsimp only
    rw [hsegment.notDouble, hsegment.notSingle, hsegment.written, if_neg Bool.false_ne_true,
      if_neg Bool.false_ne_true, ih hrest, List.append_assoc]
    rfl

/-- The segments that are read of a path make a settled path. -/
theorem isPath_readSegments (scheme : SchemeClass) (cs : List Char) :
    IsPath scheme (readSegments scheme cs) := by
  have hresolved : ∀ segment ∈ resolveSegments scheme [] (Text.splitOn scheme.isSlash cs),
      IsSettled scheme segment :=
    isSettled_resolveSegments (List.forall_mem_nil _) Text.eq_false_of_mem_splitOn
  unfold readSegments
  dsimp only
  split
  · split
    · exact ⟨List.cons_ne_nil _ _, List.forall_mem_singleton.mpr isSettled_nil,
        fun _ => Or.inl rfl⟩
    · next hne =>
      refine ⟨hne, fun segment hsegment => ?_, fun _ => Or.inr fun hhead => ?_⟩
      · exact hresolved segment (List.dropWhile_subset _ hsegment)
      · obtain ⟨rest, hrest⟩ := List.head?_eq_some_iff.mp hhead
        have hfirst := List.head_dropWhile_not List.isEmpty hne
        simp only [hrest, List.head_cons] at hfirst
        cases hfirst
  · next hfile =>
    exact ⟨resolveSegments_ne_nil (Text.splitOn_ne_nil _ _), hresolved,
      fun hscheme => absurd hscheme hfile⟩

/-- A text and segments after it are cut into that text and those segments. -/
lemma splitOn_append_segmentsText (hcs : ∀ c ∈ cs, scheme.isSlash c = false)
    (h : ∀ segment ∈ segments, ∀ c ∈ segment, scheme.isSlash c = false) :
    Text.splitOn scheme.isSlash (cs ++ segmentsText segments) = cs :: segments := by
  induction segments generalizing cs with
  | nil => rw [segmentsText, List.flatMap_nil, List.append_nil, Text.splitOn_eq_singleton hcs]
  | cons segment rest ih =>
    obtain ⟨hsegment, hrest⟩ := List.forall_mem_cons.mp h
    have hslash : scheme.isSlash '/' = true := rfl
    rw [segmentsText, List.flatMap_cons, List.cons_append, Text.splitOn_append hslash,
      Text.splitOn_eq_singleton hcs]
    exact congrArg (cs :: ·) (ih hsegment hrest)

/-- A settled path is read as its segments. -/
theorem readSegments_segmentsText (h : IsPath scheme segments) :
    readSegments scheme ((segmentsText segments).drop 1) = segments := by
  cases segments with
  | nil => exact absurd rfl h.ne_nil
  | cons segment rest =>
    obtain ⟨hsegment, hrest⟩ := List.forall_mem_cons.mp h.settled
    have hpieces : Text.splitOn scheme.isSlash ((segmentsText (segment :: rest)).drop 1) =
        segment :: rest :=
      splitOn_append_segmentsText hsegment.noSlash fun other hother => (hrest other hother).noSlash
    unfold readSegments
    dsimp only
    rw [hpieces, resolveSegments_of_settled h.settled, List.nil_append]
    split
    · next hfile =>
      rcases h.file hfile with heq | hne
      · rw [heq]
        rfl
      · have hfirst : segment.isEmpty = false := by
          cases segment with
          | nil => exact absurd rfl hne
          | cons c cs => rfl
        rw [List.dropWhile_cons, hfirst]
        rfl
    · rfl

/-- A path does not end in its segments. -/
lemma isPathChar_segmentsText (h : ∀ segment ∈ segments, IsSettled scheme segment) :
    ∀ c ∈ segmentsText segments, isPathChar c = true := by
  intro c hc
  obtain ⟨segment, hsegment, hc⟩ := List.mem_flatMap.mp hc
  rcases List.mem_cons.mp hc with rfl | hc
  · decide
  · exact (h segment hsegment).chars c hc

/-! ### Slashes at the end -/

/-- Without slashes at its end, a path has no empty segments at its end. -/
lemma rdropWhile_segmentsText (h : ∀ segment ∈ segments, ∀ c ∈ segment, c ≠ '/') :
    (segmentsText segments).rdropWhile (· == '/') =
      segmentsText (segments.rdropWhile List.isEmpty) := by
  induction segments using List.reverseRecOn with
  | nil => rfl
  | append_singleton segments segment ih =>
    obtain ⟨hsegments, hsegment⟩ := List.forall_mem_append.mp h
    have htext : segmentsText (segments ++ [segment]) =
        segmentsText segments ++ '/' :: segment := by
      simp [segmentsText]
    rw [htext, List.rdropWhile_concat]
    induction segment using List.reverseRecOn with
    | nil =>
      rw [List.rdropWhile_concat]
      exact ih hsegments
    | append_singleton cs c _ =>
      have hc : c ≠ '/' := hsegment (cs ++ [c]) (List.mem_singleton_self _) c (by simp)
      have hnonempty : ¬(cs ++ [c]).isEmpty = true := by simp
      rw [if_neg hnonempty, htext, ← List.cons_append, ← List.append_assoc,
        List.rdropWhile_concat_neg _ _ _ (by simpa using hc)]

/-- Without empty segments at its end, a settled path is settled, unless nothing is left of it. -/
lemma IsPath.rdropWhile (h : IsPath scheme segments)
    (hne : segments.rdropWhile List.isEmpty ≠ []) :
    IsPath scheme (segments.rdropWhile List.isEmpty) := by
  have hstart := List.rdropWhile_prefix List.isEmpty segments
  refine ⟨hne, fun segment hsegment => h.settled segment (hstart.subset hsegment), ?_⟩
  intro hfile
  refine Or.inr ?_
  rcases h.file hfile with heq | hhead
  · rw [heq] at hne
    exact absurd rfl hne
  · obtain ⟨rest, hrest⟩ := hstart
    rwa [← hrest, List.head?_append_of_ne_nil _ hne] at hhead

end SchemaCompiler.Uri
