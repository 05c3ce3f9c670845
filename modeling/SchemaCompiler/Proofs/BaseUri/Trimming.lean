import Mathlib.Data.List.DropRight
import SchemaCompiler.Proofs.BaseUri
import SchemaCompiler.Proofs.Uri.Rereading

/-!
# Texts without slashes at their end

What is left of the text of a URI in canonical parts when the slashes at its end are dropped.  Of
the path the segments before the empty ones at its end are left
(`BaseUri.dropSlashes_segmentsText`), and where there are none, an authority
(`BaseUri.dropSlashes_text`).  Where there is none either, the scheme alone is left
(`BaseUri.dropSlashes_text_nil`), or the point by which the path is set off
(`BaseUri.dropSlashes_rooted_nil`).
-/

namespace SchemaCompiler

namespace BaseUri

open Uri

variable {cs ds scheme : List Char} {kind : SchemeClass} {a : Authority} {segments : Segments}

/-! ### Slashes at the end -/

/-- Slashes at the end are dropped from the right. -/
lemma dropSlashes_eq (cs : List Char) : dropSlashes cs = cs.rdropWhile (· == '/') := rfl

/-- Only of slashes nothing is left. -/
lemma dropSlashes_eq_nil_iff : dropSlashes cs = [] ↔ ∀ c ∈ cs, c = '/' := by
  simp [dropSlashes_eq, List.rdropWhile_eq_nil_iff]

/-- No slash is left at the end. -/
lemma getLast_dropSlashes (cs : List Char) : (dropSlashes cs).getLast? ≠ some '/' := by
  intro hlast
  have hne : cs.rdropWhile (· == '/') ≠ [] := by
    intro hnil
    rw [dropSlashes_eq, hnil] at hlast
    cases hlast
  have hkept := List.rdropWhile_last_not (· == '/') cs hne
  rw [dropSlashes_eq, List.getLast?_eq_some_getLast hne, Option.some.injEq] at hlast
  exact hkept (beq_iff_eq.mpr hlast)

/-- Without a slash, a text stays as it is. -/
lemma dropSlashes_eq_self (h : ∀ c ∈ cs, c ≠ '/') : dropSlashes cs = cs := by
  rw [dropSlashes_eq, List.rdropWhile_eq_self_iff]
  exact fun hne => by simpa using h _ (List.getLast_mem hne)

/-- Slashes at the end are those of the last part. -/
lemma dropSlashes_append (h : dropSlashes ds ≠ []) :
    dropSlashes (cs ++ ds) = cs ++ dropSlashes ds := by
  have hne : (ds.reverse.dropWhile (· == '/')).isEmpty = false := by
    simpa [dropSlashes] using h
  rw [dropSlashes, List.reverse_append, List.dropWhile_append, hne, if_neg Bool.false_ne_true,
    List.reverse_append, List.reverse_reverse, dropSlashes]

/-- After a last part of slashes alone, slashes are dropped further on. -/
lemma dropSlashes_append_slashes (h : dropSlashes ds = []) :
    dropSlashes (cs ++ ds) = dropSlashes cs := by
  have hnil : (ds.reverse.dropWhile (· == '/')).isEmpty = true := by
    simpa [dropSlashes] using h
  rw [dropSlashes, List.reverse_append, List.dropWhile_append, hnil, if_pos rfl, dropSlashes]

/-! ### Segments -/

/-- The segments before the empty ones at the end. -/
def kept (segments : Segments) : Segments := segments.rdropWhile List.isEmpty

/-- Without slashes at its end, a path has the segments before the empty ones. -/
lemma dropSlashes_segmentsText (h : ∀ segment ∈ segments, IsSettled kind segment) :
    dropSlashes (segmentsText segments) = segmentsText (kept segments) := by
  refine rdropWhile_segmentsText fun segment hsegment c hc => ?_
  rintro rfl
  exact absurd ((h segment hsegment).noSlash '/' hc) (by simp [SchemeClass.isSlash])

/-- The segments before the empty ones are settled. -/
lemma isSettled_kept (h : ∀ segment ∈ segments, IsSettled kind segment) :
    ∀ segment ∈ kept segments, IsSettled kind segment :=
  fun segment hsegment => h segment ((List.rdropWhile_prefix _ _).subset hsegment)

/-- The segments before the empty ones make a path, if there are any. -/
lemma isPath_kept (h : IsPath kind segments) (hne : kept segments ≠ []) :
    IsPath kind (kept segments) :=
  h.rdropWhile hne

/-- The segments before the empty ones are all kept. -/
lemma kept_kept (segments : Segments) : kept (kept segments) = kept segments :=
  List.rdropWhile_idempotent _ _

/-- No path is left exactly of a path of slashes. -/
lemma kept_eq_nil_iff (h : ∀ segment ∈ segments, IsSettled kind segment) :
    kept segments = [] ↔ ∀ c ∈ segmentsText segments, c = '/' := by
  rw [← dropSlashes_eq_nil_iff, dropSlashes_segmentsText h]
  constructor
  · exact fun hnil => by rw [hnil]; rfl
  · intro hnil
    by_contra hne
    exact segmentsText_ne_nil hne hnil

/-- Where the segments before the empty ones are written, they are the path without slashes at its
end. -/
lemma dropSlashes_pathAfterAuthority (h : segments = [] ∨ IsPath kind segments) :
    dropSlashes (pathAfterAuthority kind (segmentsText (kept segments))) =
      segmentsText (kept segments) := by
  by_cases hne : kept segments = []
  · rw [hne]
    cases kind <;> rfl
  · have hpath : IsPath kind segments := h.resolve_left fun hnil => hne (by rw [hnil]; rfl)
    have hkept := isPath_kept hpath hne
    rw [pathAfterAuthority_written hkept, dropSlashes_segmentsText hkept.settled, kept_kept]

/-! ### Texts -/

/-- The text of a URI with an authority, without slashes at its end. -/
lemma dropSlashes_text {path : List Char} {hierarchical hasSuffix : Bool}
    (ha : ∀ c ∈ a.text, c ≠ '/') (hne : a.text ≠ [] ∨ dropSlashes path ≠ []) :
    dropSlashes (Uri.text ⟨scheme, some a, path, hierarchical, hasSuffix⟩) =
      scheme ++ ':' :: '/' :: '/' :: (a.text ++ dropSlashes path) := by
  have htext : Uri.text ⟨scheme, some a, path, hierarchical, hasSuffix⟩ =
      (scheme ++ [':', '/', '/']) ++ a.text ++ path := by
    simp [Uri.text]
  have hgoal : scheme ++ ':' :: '/' :: '/' :: (a.text ++ dropSlashes path) =
      (scheme ++ [':', '/', '/']) ++ a.text ++ dropSlashes path := by
    simp
  rw [htext, hgoal]
  by_cases hpath : dropSlashes path = []
  · have hself := dropSlashes_eq_self ha
    have hdropped : dropSlashes a.text ≠ [] := hself.symm ▸ hne.resolve_right (not_not_intro hpath)
    rw [dropSlashes_append_slashes hpath, dropSlashes_append hdropped, hself, hpath,
      List.append_nil]
  · rw [dropSlashes_append hpath]

/-- The text of a URI with a host and neither a user nor a port, without slashes at its end. -/
lemma dropSlashes_text_host {host path : List Char} {hierarchical hasSuffix : Bool}
    (h : IsHost host) (hne : host ≠ [] ∨ dropSlashes path ≠ []) :
    dropSlashes (Uri.text ⟨scheme, some ⟨[], host, none⟩, path, hierarchical, hasSuffix⟩) =
      scheme ++ ':' :: '/' :: '/' :: (host ++ dropSlashes path) := by
  have ha : Authority.text ⟨[], host, none⟩ = host := List.append_nil host
  have hslash : ∀ c ∈ Authority.text ⟨[], host, none⟩, c ≠ '/' := by
    rw [ha]
    intro c hc
    rintro rfl
    exact absurd (h.chars _ hc) (by decide)
  rw [dropSlashes_text hslash (ha.symm ▸ hne), ha]

/-- The scheme alone is left where neither an authority nor a segment is written. -/
lemma dropSlashes_text_nil {path : List Char} {hierarchical hasSuffix : Bool} (ha : a.text = [])
    (hpath : dropSlashes path = []) :
    dropSlashes (Uri.text ⟨scheme, some a, path, hierarchical, hasSuffix⟩) = scheme ++ [':'] := by
  have htext : Uri.text ⟨scheme, some a, path, hierarchical, hasSuffix⟩ =
      (scheme ++ [':']) ++ ('/' :: '/' :: path) := by
    simp [Uri.text, ha]
  have hslashes : dropSlashes ('/' :: '/' :: path) = [] := by
    rw [dropSlashes_eq_nil_iff] at hpath ⊢
    exact List.forall_mem_cons.mpr ⟨rfl, List.forall_mem_cons.mpr ⟨rfl, hpath⟩⟩
  rw [htext, dropSlashes_append_slashes hslashes]
  exact List.rdropWhile_concat_neg _ _ _ (by decide)

/-- Without slashes at its end, a path that has a segment is set off or not as before. -/
lemma dropSlashes_setOff (h : ∀ segment ∈ segments, IsSettled kind segment)
    (hne : kept segments ≠ []) :
    dropSlashes (setOff (segmentsText segments)) = setOff (segmentsText (kept segments)) := by
  have hdropped := dropSlashes_segmentsText h
  obtain ⟨tail, htail⟩ := List.rdropWhile_prefix List.isEmpty segments
  change kept segments ++ tail = segments at htail
  have hlast := kept_kept segments
  have hkept := isSettled_kept h
  cases hfirst : kept segments with
  | nil => exact absurd hfirst hne
  | cons segment rest =>
    rw [hfirst] at htail hlast hkept
    cases segment with
    | nil =>
      cases rest with
      | nil => cases hlast
      | cons next rest =>
        have hset : ∀ more, setOff (segmentsText ([] :: next :: more)) =
            ['/', '.'] ++ segmentsText ([] :: next :: more) := fun _ => rfl
        rw [hfirst, ← htail] at hdropped
        rw [← htail, List.cons_append, List.cons_append, hset, hset, dropSlashes_append]
        · exact congrArg (['/', '.'] ++ ·) hdropped
        · exact hdropped ▸ nofun
    | cons c cs =>
      have hc : c ≠ '/' := by
        rintro rfl
        exact absurd ((hkept _ List.mem_cons_self).noSlash '/' List.mem_cons_self)
          (by simp [SchemeClass.isSlash])
      rw [setOff_segmentsText hc, ← hfirst, ← hdropped, ← htail, List.cons_append,
        setOff_segmentsText hc]

/-- The base of a URI without an authority, if the path has a segment. -/
lemma dropSlashes_rooted (h : ∀ segment ∈ segments, IsSettled kind segment)
    (hne : kept segments ≠ []) (hierarchical hasSuffix : Bool) :
    dropSlashes (Uri.text ⟨scheme, none, segmentsText segments, hierarchical, hasSuffix⟩) =
      scheme ++ ':' :: setOff (segmentsText (kept segments)) := by
  have htext : scheme ++ ':' :: setOff (segmentsText segments) =
      (scheme ++ [':']) ++ setOff (segmentsText segments) := by
    simp
  have hset := dropSlashes_setOff h hne
  have hsome : dropSlashes (setOff (segmentsText segments)) ≠ [] := by
    rw [hset]
    rcases setOff_eq_or (segmentsText (kept segments)) with hpath | hpath
    · rw [hpath]
      exact segmentsText_ne_nil hne
    · rw [hpath]
      exact List.cons_ne_nil _ _
  rw [text_rooted, htext, dropSlashes_append hsome, hset, List.append_assoc,
    List.singleton_append]

/-- The base of a URI without an authority, if all segments of the path are empty. -/
lemma dropSlashes_rooted_nil (h : ∀ segment ∈ segments, IsSettled kind segment)
    (hnil : kept segments = []) (hierarchical hasSuffix : Bool) :
    dropSlashes (Uri.text ⟨scheme, none, segmentsText segments, hierarchical, hasSuffix⟩) =
        scheme ++ [':'] ∨
      dropSlashes (Uri.text ⟨scheme, none, segmentsText segments, hierarchical, hasSuffix⟩) =
        scheme ++ [':', '/', '.'] := by
  have hslashes : dropSlashes (segmentsText segments) = [] := by
    rw [dropSlashes_segmentsText h, hnil]
    rfl
  rw [text_rooted]
  rcases setOff_eq_or (segmentsText segments) with hset | hset
  · have htext : scheme ++ ':' :: segmentsText segments =
        (scheme ++ [':']) ++ segmentsText segments := by
      simp
    rw [hset, htext, dropSlashes_append_slashes hslashes]
    exact Or.inl (List.rdropWhile_concat_neg _ _ _ (by decide))
  · have htext : scheme ++ ':' :: '/' :: '.' :: segmentsText segments =
        (scheme ++ [':', '/'] ++ ['.']) ++ segmentsText segments := by
      simp
    have hpoint : scheme ++ [':', '/', '.'] = scheme ++ [':', '/'] ++ ['.'] := by
      simp
    rw [hset, htext, dropSlashes_append_slashes hslashes, hpoint]
    exact Or.inr (List.rdropWhile_concat_neg _ _ _ (by decide))

end BaseUri

end SchemaCompiler
