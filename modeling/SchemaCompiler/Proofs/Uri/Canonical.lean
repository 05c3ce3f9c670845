import SchemaCompiler.Proofs.Uri.Authority
import SchemaCompiler.Proofs.Uri.Segments

/-!
# Canonical URIs

A text is read as a URI in canonical parts (`Uri.isCanonical_parse`), which has a form of its own
for each kind of scheme and path.  Neither a query nor a fragment begins in the text of such a URI
(`Uri.suffixFree_text`), whatever was written, and if the path is a sequence of segments, every
character of the text is visible (`Uri.IsCanonical.isPathChar`).
-/

namespace SchemaCompiler

namespace Uri

/-- The forms of a URI in canonical parts. -/
inductive IsCanonical : Uri → Prop
  /-- A file; the local machine is not written, and only there are drives. -/
  | file {host : List Char} {segments : Segments} {hasSuffix : Bool}
      (written : host = [] ∨ ∃ cs, Host.canonical cs = .ok host)
      (remote : host ≠ "localhost".toList) (drives : host ≠ [] → segments.any isDrive = false)
      (path : IsPath .file segments) :
      IsCanonical ⟨"file".toList, some ⟨[], host, none⟩, segmentsText segments, true, hasSuffix⟩
  /-- A scheme with a default port. -/
  | special {scheme : List Char} {n : Nat} {a : Authority} {segments : Segments} {hasSuffix : Bool}
      (name : IsScheme scheme) (kind : SchemeClass.ofName scheme = .special n)
      (authority : IsAuthority (.special n) a) (path : IsPath (.special n) segments) :
      IsCanonical ⟨scheme, some a, segmentsText segments, true, hasSuffix⟩
  /-- Another scheme with an authority, and with a path or without. -/
  | placed {scheme : List Char} {a : Authority} {segments : Segments} {hasSuffix : Bool}
      (name : IsScheme scheme) (kind : SchemeClass.ofName scheme = .other)
      (authority : IsAuthority .other a) (path : segments = [] ∨ IsPath .other segments) :
      IsCanonical ⟨scheme, some a, segmentsText segments, true, hasSuffix⟩
  /-- Another scheme without an authority, but with a path. -/
  | rooted {scheme : List Char} {segments : Segments} {hasSuffix : Bool} (name : IsScheme scheme)
      (kind : SchemeClass.ofName scheme = .other) (path : IsPath .other segments) :
      IsCanonical ⟨scheme, none, segmentsText segments, true, hasSuffix⟩
  /-- A path that is no sequence of segments. -/
  | rootless {scheme path : List Char} {hasSuffix : Bool} (name : IsScheme scheme)
      (kind : SchemeClass.ofName scheme = .other) (free : SuffixFree path) :
      IsCanonical ⟨scheme, none, path, false, hasSuffix⟩

variable {cs scheme : List Char} {kind : SchemeClass} {uri : Uri}

/-! ### Reading -/

/-- The path after an authority is settled, or empty if the scheme has no rules of its own. -/
lemma exists_pathAfterAuthority (hkind : kind ≠ .file) (cs : List Char) : ∃ segments,
    pathAfterAuthority kind cs = segmentsText segments ∧
      (IsPath kind segments ∨ kind = .other ∧ segments = []) := by
  unfold pathAfterAuthority
  split
  · split
    · exact ⟨[[]], rfl, Or.inl ⟨List.cons_ne_nil _ _, List.forall_mem_singleton.mpr isSettled_nil,
        fun hfile => absurd hfile hkind⟩⟩
    · next hspecial =>
      refine ⟨[], rfl, Or.inr ⟨?_, rfl⟩⟩
      cases kind with
      | file => exact absurd rfl hspecial
      | special n => exact absurd rfl hspecial
      | other => rfl
  · exact ⟨_, rfl, Or.inl (isPath_readSegments _ _)⟩

/-- What follows two slashes is read in canonical parts. -/
lemma isCanonical_afterSlashes (hname : IsScheme scheme)
    (hkind : SchemeClass.ofName scheme ≠ .file) (h : afterSlashes scheme cs = .ok uri) :
    IsCanonical uri := by
  obtain ⟨authority, hauthority, h⟩ := bind_eq_ok_iff.mp h
  obtain rfl := pure_eq_ok_iff.mp h
  have hcanonical := isAuthority_readAuthority hauthority
  generalize hrest : cs.dropWhile (fun c => !endsAuthority (SchemeClass.ofName scheme) c) = rest
  obtain ⟨segments, hpath, hsegments⟩ := exists_pathAfterAuthority hkind (beforeSuffix rest)
  simp only [hpath]
  cases hclass : SchemeClass.ofName scheme with
  | file => exact absurd hclass hkind
  | special n =>
    rw [hclass] at hcanonical hsegments
    exact .special hname hclass hcanonical (hsegments.resolve_right nofun)
  | other =>
    rw [hclass] at hcanonical hsegments
    exact .placed hname hclass hcanonical (hsegments.symm.imp_left And.right)

/-- What follows a scheme without rules of its own is read in canonical parts. -/
lemma isCanonical_afterOtherScheme (hname : IsScheme scheme)
    (hkind : SchemeClass.ofName scheme = .other) (h : afterOtherScheme scheme cs = .ok uri) :
    IsCanonical uri := by
  unfold afterOtherScheme at h
  split at h
  · exact isCanonical_afterSlashes hname (hkind ▸ nofun) h
  · obtain rfl := Except.ok.inj h
    exact .rooted hname hkind (isPath_readSegments _ _)
  · obtain rfl := Except.ok.inj h
    exact .rootless hname hkind ((suffixFree_beforeSuffix _).percentEncode _)

/-- The host of a file is a host in canonical text. -/
lemma isHost_file {host : List Char} (h : host = [] ∨ ∃ cs, Host.canonical cs = .ok host) :
    IsHost host := by
  rcases h with rfl | ⟨cs, h⟩
  · exact isHost_of_plain nofun nofun
  · exact (isHost_canonical h).1

/-- The host of a file is in canonical text, and not the name of the local machine. -/
lemma of_readFileHost {host : List Char} (h : readFileHost cs = .ok host) :
    (host = [] ∨ ∃ cs, Host.canonical cs = .ok host) ∧ host ≠ "localhost".toList := by
  unfold readFileHost at h
  split at h
  · exact pure_eq_ok_iff.mp h ▸ ⟨Or.inl rfl, nofun⟩
  · obtain ⟨written, hwritten, h⟩ := bind_eq_ok_iff.mp h
    rw [pure_eq_ok_iff] at h
    split at h
    · exact h ▸ ⟨Or.inl rfl, nofun⟩
    · next hremote => exact h ▸ ⟨Or.inr ⟨_, hwritten⟩, hremote⟩

/-- The URI of a file is in canonical parts if its host is. -/
lemma isCanonical_fileUri {host : List Char}
    (hhost : host = [] ∨ ∃ cs, Host.canonical cs = .ok host) (hremote : host ≠ "localhost".toList)
    (cs : List Char) : IsCanonical (fileUri host cs) := by
  unfold fileUri
  dsimp only
  generalize (if ((beforeSuffix cs).take 1).any SchemeClass.file.isSlash then
    (beforeSuffix cs).drop 1 else beforeSuffix cs) = path
  split
  · exact .file (Or.inl rfl) nofun (absurd rfl) (isPath_readSegments _ _)
  · next hdrive =>
    exact .file hhost hremote (fun _ => Bool.eq_false_iff.mpr hdrive) (isPath_readSegments _ _)

/-- What follows `file` is read in canonical parts. -/
lemma isCanonical_afterFile (h : afterFile cs = .ok uri) : IsCanonical uri := by
  have hlocal : ∀ cs, IsCanonical (fileUri [] cs) := isCanonical_fileUri (Or.inl rfl) nofun
  unfold afterFile at h
  dsimp only at h
  split at h
  · split at h
    · split at h
      · exact pure_eq_ok_iff.mp h ▸ hlocal _
      · obtain ⟨host, hhost, h⟩ := bind_eq_ok_iff.mp h
        obtain ⟨hwritten, hremote⟩ := of_readFileHost hhost
        exact pure_eq_ok_iff.mp h ▸ isCanonical_fileUri hwritten hremote _
    · exact pure_eq_ok_iff.mp h ▸ hlocal _
  · exact pure_eq_ok_iff.mp h ▸ hlocal _

/-- A text is read as a URI in canonical parts. -/
theorem isCanonical_parse (h : parse cs = .ok uri) : IsCanonical uri := by
  unfold parse at h
  dsimp only at h
  split at h
  · cases h
  · next scheme rest hscheme =>
    have hname := isScheme_of_readScheme hscheme
    split at h
    · exact isCanonical_afterFile h
    · next hclass => exact isCanonical_afterSlashes hname (hclass ▸ nofun) h
    · next hclass => exact isCanonical_afterOtherScheme hname hclass h

/-! ### Texts -/

/-- What holds of the marks of a URI and in all its parts holds in its text. -/
lemma forall_mem_text {P : Char → Prop} (hmarks : ∀ c ∈ [':', '/', '.'], P c)
    (hscheme : ∀ c ∈ uri.scheme, P c) (hauthority : ∀ a ∈ uri.authority, ∀ c ∈ a.text, P c)
    (hpath : ∀ c ∈ uri.path, P c) : ∀ c ∈ uri.text, P c := by
  have hcolon := hmarks ':' (by decide)
  have hslash := hmarks '/' (by decide)
  have hpoint := hmarks '.' (by decide)
  unfold Uri.text
  refine List.forall_mem_append.mpr ⟨hscheme, List.forall_mem_cons.mpr ⟨hcolon, ?_⟩⟩
  split
  · next a ha =>
    refine List.forall_mem_cons.mpr ⟨hslash, List.forall_mem_cons.mpr ⟨hslash, ?_⟩⟩
    exact List.forall_mem_append.mpr ⟨hauthority a ha, hpath⟩
  · split
    · exact List.forall_mem_cons.mpr ⟨hslash, List.forall_mem_cons.mpr ⟨hpoint, hpath⟩⟩
    · exact hpath

/-- The text of a URI with a sequence of segments is visible, and no path ends in it. -/
theorem IsCanonical.isPathChar (h : IsCanonical uri) (hpath : uri.hierarchical = true) :
    ∀ c ∈ uri.text, isPathChar c = true := by
  have hmarks : ∀ c ∈ [':', '/', '.'], Uri.isPathChar c = true :=
    forall_mem_of_all (by decide)
  cases h with
  | @file host _ _ written _ _ path =>
    have hname : ∀ c ∈ "file".toList, Uri.isPathChar c = true :=
    forall_mem_of_all (by decide)
    refine forall_mem_text hmarks hname ?_ (isPathChar_segmentsText path.settled)
    intro a ha c hc
    obtain rfl := Option.some.inj ha
    rw [text_eq] at hc
    have hmem : c ∈ host := by simpa [portText] using hc
    exact (Bool.and_eq_true_iff.mp ((isHost_file written).chars c hmem)).1
  | special name _ authority path =>
    refine forall_mem_text hmarks name.isPathChar ?_ (isPathChar_segmentsText path.settled)
    exact fun _ ha => Option.some.inj ha ▸ authority.isPathChar
  | placed name _ authority path =>
    refine forall_mem_text hmarks name.isPathChar ?_ ?_
    · exact fun _ ha => Option.some.inj ha ▸ authority.isPathChar
    · rcases path with rfl | path
      · exact List.forall_mem_nil _
      · exact isPathChar_segmentsText path.settled
  | rooted name _ path =>
    exact forall_mem_text hmarks name.isPathChar nofun (isPathChar_segmentsText path.settled)
  | rootless => cases hpath

/-- The canonical text of a URI has no suffix. -/
theorem suffixFree_text (h : parse cs = .ok uri) : SuffixFree uri.text := by
  have hcanonical := isCanonical_parse h
  cases hpath : uri.hierarchical with
  | true => exact suffixFree_of_isPathChar (hcanonical.isPathChar hpath)
  | false =>
    cases hcanonical with
    | rootless name _ free =>
      exact forall_mem_text (forall_mem_of_all (by decide))
        (suffixFree_of_isPathChar name.isPathChar) nofun free
    | file => cases hpath
    | special => cases hpath
    | placed => cases hpath
    | rooted => cases hpath

end Uri

end SchemaCompiler
