import SchemaCompiler.Proofs.Path
import SchemaCompiler.SchemaName

/-!
# Files of schemas

The file of a schema has a proper name (`SchemaName.isName_fileName`), since no slash stands in a
valid schema name, and the file tells the name (`SchemaName.fileName_injective`).
-/

namespace SchemaCompiler.SchemaName

variable {name other : String}

/-- The characters of a valid name are allowed. -/
lemma allows_of_isValid (h : isValid name = true) : ∀ c ∈ name.toList, allows c = true := by
  unfold isValid at h
  split at h
  · cases h
  · cases h
  · exact List.all_eq_true.mp h

/-- A text is given with the suffix of schema files. -/
def HasSuffix (text : String) : Prop := fileSuffix.toList <:+ text.toList

instance : DecidablePred HasSuffix :=
  fun text => inferInstanceAs (Decidable (fileSuffix.toList <:+ text.toList))

/-- A text with the suffix of schema files and without slashes is a proper name. -/
lemma HasSuffix.isName {text : String} (h : HasSuffix text) (hslash : '/' ∉ text.toList) :
    Path.IsName text := by
  have hlength : ∀ short : String, short.toList.length < 12 → text ≠ short := by
    rintro short hshort rfl
    have hle := h.length_le
    have hsuffix : fileSuffix.toList.length = 12 := rfl
    omega
  exact ⟨hslash, hlength "" (by decide), hlength "." (by decide), hlength ".." (by decide)⟩

/-- The characters of the file of a schema are those of its name, and then the suffix. -/
lemma toList_fileName (name : String) :
    (fileName name).toList = name.toList ++ fileSuffix.toList := String.toList_append

/-- The file of a schema has the suffix. -/
lemma hasSuffix_fileName (name : String) : HasSuffix (fileName name) :=
  ⟨name.toList, (toList_fileName name).symm⟩

/-- A slash stands in the file of a schema only if one stands in its name. -/
lemma slash_mem_fileName : '/' ∈ (fileName name).toList ↔ '/' ∈ name.toList := by
  have hsuffix : '/' ∉ fileSuffix.toList := by decide
  rw [toList_fileName, List.mem_append, or_iff_left hsuffix]

/-- The file of a schema has a proper name. -/
lemma isName_fileName (h : isValid name = true) : Path.IsName (fileName name) := by
  refine (hasSuffix_fileName name).isName fun hmem => ?_
  exact absurd (allows_of_isValid h _ (slash_mem_fileName.mp hmem)) (by decide)

/-- Schemas in one file have one name. -/
lemma fileName_injective (h : fileName name = fileName other) : name = other := by
  have hchars := congrArg String.toList h
  rw [toList_fileName, toList_fileName] at hchars
  exact String.toList_injective (List.append_cancel_right hchars)

end SchemaCompiler.SchemaName
