import SchemaCompiler.Proofs.SchemaName
import SchemaCompiler.Proofs.Uri.Canonical
import SchemaCompiler.Validation.MetaSchema

/-!
# Identifiers under base URIs

A base URI that is read from a text has neither a query nor a fragment
(`BaseUri.IsParsed.suffixFree`), and no schema name brings one in.  So the identifiers under the
base have no fragment (`BaseUri.IsParsed.lacksFragment_identifier`).
-/

namespace SchemaCompiler.BaseUri

open Uri (SuffixFree)

/-- The base is read from a text. -/
def IsParsed (base : BaseUri) : Prop := ∃ value, parse value = .ok base

variable {base : BaseUri} {name : String}

/-- Without slashes at its end, a text has nothing new. -/
lemma dropSlashes_subset (cs : List Char) : dropSlashes cs ⊆ cs := by
  intro c hc
  have hreversed := List.dropWhile_subset _ (List.mem_reverse.mp hc)
  exact List.mem_reverse.mp hreversed

/-- There is neither a query nor a fragment in a base. -/
theorem IsParsed.suffixFree (h : base.IsParsed) : SuffixFree base.text.toList := by
  obtain ⟨value, h⟩ := h
  obtain ⟨uri, huri, h⟩ := bind_eq_ok_iff.mp h
  obtain ⟨-, h⟩ := unless_eq_ok_iff.mp h
  obtain ⟨-, h⟩ := unless_eq_ok_iff.mp h
  obtain rfl := pure_eq_ok_iff.mp h
  rw [String.toList_ofList]
  exact (Uri.suffixFree_text huri).subset (dropSlashes_subset _)

/-- There is neither a query nor a fragment in a valid schema name. -/
lemma suffixFree_of_isValid (h : SchemaName.isValid name = true) : SuffixFree name.toList :=
  fun c hc => Uri.endsPath_eq_false (p := fun c => SchemaName.allows c = true) (by decide)
    (SchemaName.allows_of_isValid h c hc)

/-- The identifiers under a base have no fragment. -/
theorem IsParsed.lacksFragment_identifier (hbase : base.IsParsed)
    (hname : SchemaName.isValid name = true) :
    Validation.lacksFragment (base.identifier name).uri = true := by
  have hslash : SuffixFree "/".toList := by decide
  have hsuffix : SuffixFree SchemaName.fileSuffix.toList := by decide
  have hfree : SuffixFree (base.identifier name).uri.toList := by
    rw [identifier, String.toList_append, String.toList_append, SchemaName.toList_fileName]
    refine Uri.suffixFree_append.mpr ⟨Uri.suffixFree_append.mpr ⟨hbase.suffixFree, hslash⟩, ?_⟩
    exact Uri.suffixFree_append.mpr ⟨suffixFree_of_isValid hname, hsuffix⟩
  rw [Validation.lacksFragment, Bool.not_eq_true', ← Bool.not_eq_true, List.contains_iff_mem]
  intro hmem
  exact absurd (hfree '#' (List.dropLast_subset _ hmem)) (by decide)

end SchemaCompiler.BaseUri
