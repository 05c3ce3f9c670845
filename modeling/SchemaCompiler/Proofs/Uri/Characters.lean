import Mathlib.Data.List.TakeWhile
import Mathlib.Tactic.Lemma
import SchemaCompiler.Uri.Basic

/-!
# Characters of URIs

`Uri.SuffixFree` says that neither a query nor a fragment begins in a text.  None begins in visible
characters at which no path ends (`Uri.suffixFree_of_isPathChar`), which the parts of a URI are
written in.

A percent-encoded text holds characters that the encoding leaves alone and encoded bytes.  What
encoded bytes are made of is left alone by every part of a URI, so a text that is encoded stays as
it is when it is encoded again (`Uri.percentEncode_twice`).
-/

namespace SchemaCompiler.Uri

variable {cs ds : List Char} {encodes : Char → Bool} {c : Char}

/-! ### Texts without query and fragment -/

/-- A text in which neither a query nor a fragment begins. -/
def SuffixFree (cs : List Char) : Prop := ∀ c ∈ cs, endsPath c = false

instance : DecidablePred SuffixFree := fun cs => List.decidableBAll (endsPath · = false) cs

/-- Two characters begin a suffix. -/
lemma endsPath_iff {c : Char} : endsPath c = true ↔ c = '?' ∨ c = '#' := by
  simp [endsPath]

/-- No character of a kind that neither `?` nor `#` is of begins a suffix. -/
lemma endsPath_eq_false {p : Char → Prop} (hp : ¬p '?' ∧ ¬p '#') {c : Char} (h : p c) :
    endsPath c = false := by
  refine Bool.eq_false_iff.mpr fun hends => ?_
  rcases endsPath_iff.mp hends with rfl | rfl
  · exact hp.1 h
  · exact hp.2 h

/-- Part of a text has no suffix if the text has none. -/
lemma SuffixFree.subset (h : SuffixFree cs) (hsub : ds ⊆ cs) : SuffixFree ds :=
  fun c hc => h c (hsub hc)

/-- Two texts one after the other have no suffix if neither has. -/
@[simp] lemma suffixFree_append : SuffixFree (cs ++ ds) ↔ SuffixFree cs ∧ SuffixFree ds :=
  List.forall_mem_append

/-- The part of a text before a suffix has none. -/
lemma suffixFree_beforeSuffix (cs : List Char) : SuffixFree (beforeSuffix cs) := by
  intro c hc
  simpa using List.mem_takeWhile_imp hc

/-! ### Visible characters -/

/-- What is decided for all ASCII characters holds of each of them. -/
lemma of_ascii {P : Char → Prop} [DecidablePred P] (hall : ∀ n < 128, P (Char.ofNat n))
    (h : c.toNat < 128) : P c := by
  have hc := hall c.toNat h
  rwa [Char.ofNat_toNat] at hc

/-- What is decided for each character of a text holds of all of them. -/
lemma forall_mem_of_all {P : Char → Prop} [DecidablePred P]
    (hall : (cs.all fun c => decide (P c)) = true) : ∀ c ∈ cs, P c :=
  fun c hc => of_decide_eq_true (List.all_eq_true.mp hall c hc)

/-- A character that can stand in a URI: ASCII, and neither blank nor a control character. -/
def isVisible (c : Char) : Bool := 0x21 ≤ c.toNat && c.toNat ≤ 0x7E

/-- A visible character at which a path does not end. -/
def isPathChar (c : Char) : Bool := isVisible c && !endsPath c

/-- Neither a query nor a fragment begins in visible characters at which no path ends. -/
lemma suffixFree_of_isPathChar (h : ∀ c ∈ cs, isPathChar c = true) : SuffixFree cs :=
  fun c hc => (Bool.not_eq_true' _).mp (Bool.and_eq_true_iff.mp (h c hc)).2

/-! ### Encoded bytes -/

/-- What encoded bytes are made of: percent signs and hexadecimal digits. -/
def encodings : List Char :=
  ['%', '0', '1', '2', '3', '4', '5', '6', '7', '8', '9', 'A', 'B', 'C', 'D', 'E', 'F']

/-- A character that encoded bytes are made of. -/
def isEncoding (c : Char) : Bool := encodings.contains c

/-- What is decided for percent signs and hexadecimal digits holds of what bytes are made of. -/
lemma of_isEncoding {P : Char → Prop} [DecidablePred P]
    (hall : (encodings.all fun c => decide (P c)) = true) (h : isEncoding c = true) : P c :=
  forall_mem_of_all hall c (List.contains_iff_mem.mp h)

/-- The digits of a byte. -/
lemma isEncoding_digit : ∀ n < 16, isEncoding (Nat.digitChar n).toUpper = true := by
  decide

/-- An encoded byte. -/
lemma isEncoding_of_mem_encodeByte {b : UInt8} (h : c ∈ encodeByte b) : isEncoding c = true := by
  have hb : b.toNat < 256 := b.toNat_lt
  simp only [encodeByte, List.mem_cons, List.not_mem_nil, or_false] at h
  rcases h with rfl | rfl | rfl
  · decide
  · exact isEncoding_digit _ (by omega)
  · exact isEncoding_digit _ (by omega)

/-- A character of an encoded text is one that was left alone, or belongs to an encoded byte. -/
lemma of_mem_percentEncode (h : c ∈ percentEncode encodes cs) :
    (c ∈ cs ∧ encodes c = false) ∨ isEncoding c = true := by
  obtain ⟨written, hwritten, hc⟩ := List.mem_flatMap.mp h
  split at hc
  · obtain ⟨b, -, hb⟩ := List.mem_flatMap.mp hc
    exact Or.inr (isEncoding_of_mem_encodeByte hb)
  · next hkept =>
    obtain rfl := List.mem_singleton.mp hc
    exact Or.inl ⟨hwritten, Bool.eq_false_iff.mpr hkept⟩

/-- Encoding brings no suffix in. -/
lemma SuffixFree.percentEncode (h : SuffixFree cs) (encodes : Char → Bool) :
    SuffixFree (percentEncode encodes cs) := by
  intro c hc
  rcases of_mem_percentEncode hc with ⟨hc, -⟩ | hc
  · exact h c hc
  · exact of_isEncoding (P := fun c => endsPath c = false) (by decide) hc

/-- A text without characters to encode stays as it is. -/
lemma percentEncode_eq_self (h : ∀ c ∈ cs, encodes c = false) : percentEncode encodes cs = cs := by
  induction cs with
  | nil => rfl
  | cons c cs ih =>
    obtain ⟨hc, hcs⟩ := List.forall_mem_cons.mp h
    rw [percentEncode, List.flatMap_cons, hc]
    exact congrArg (c :: ·) (ih hcs)

/-- No character of an encoded text has to be encoded. -/
lemma encodes_eq_false (hencoding : ∀ c, isEncoding c = true → encodes c = false)
    (h : c ∈ percentEncode encodes cs) : encodes c = false :=
  (of_mem_percentEncode h).elim (·.2) (hencoding c)

/-- An encoded text stays as it is. -/
lemma percentEncode_twice (hencoding : ∀ c, isEncoding c = true → encodes c = false)
    (cs : List Char) :
    percentEncode encodes (percentEncode encodes cs) = percentEncode encodes cs :=
  percentEncode_eq_self fun _ hc => encodes_eq_false hencoding hc

/-- The bytes of a character start with one that is not a point, unless the character is one. -/
lemma exists_utf8EncodeChar (hc : c ≠ '.') :
    ∃ b bs, String.utf8EncodeChar c = b :: bs ∧ b.toNat ≠ 0x2E := by
  have hne : c.val.toNat ≠ 0x2E := fun h => hc (Char.ext (UInt32.toNat_inj.mp h))
  unfold String.utf8EncodeChar
  dsimp only
  split
  · exact ⟨_, _, rfl, by rw [UInt8.toNat_ofNat']; omega⟩
  · split
    · exact ⟨_, _, rfl, by rw [UInt8.toNat_ofNat']; omega⟩
    · split
      · exact ⟨_, _, rfl, by rw [UInt8.toNat_ofNat']; omega⟩
      · exact ⟨_, _, rfl, by rw [UInt8.toNat_ofNat']; omega⟩

/-- A character that is encoded is written as a percent sign, two digits that are not those of a
point, and more. -/
lemma exists_percentEncode_cons (hc : encodes c = true) (hpoint : encodes '.' = false)
    (cs : List Char) : ∃ high low rest,
      percentEncode encodes (c :: cs) = '%' :: high :: low :: rest ∧
        ¬(high = '2' ∧ (low = 'e' ∨ low = 'E')) := by
  have hne : c ≠ '.' := by
    rintro rfl
    rw [hpoint] at hc
    cases hc
  obtain ⟨b, bs, hbytes, hb⟩ := exists_utf8EncodeChar hne
  have hdigits : ∀ high < 16, ∀ low < 16, (Nat.digitChar high).toUpper = '2' →
      (Nat.digitChar low).toUpper = 'e' ∨ (Nat.digitChar low).toUpper = 'E' →
        16 * high + low = 0x2E := by
    decide
  have hlt : b.toNat < 256 := b.toNat_lt
  refine ⟨(Nat.digitChar (b.toNat / 16)).toUpper, (Nat.digitChar (b.toNat % 16)).toUpper,
    bs.flatMap encodeByte ++ percentEncode encodes cs, ?_, ?_⟩
  · rw [percentEncode, List.flatMap_cons, if_pos hc, hbytes, List.flatMap_cons, List.append_assoc]
    rfl
  · rintro ⟨hhigh, hlow⟩
    have hsum := hdigits (b.toNat / 16) (by omega) (b.toNat % 16) (by omega) hhigh hlow
    omega

/-- An encoding changes nothing or writes a percent sign. -/
lemma percentEncode_eq_self_or_mem (hpoint : encodes '.' = false) (cs : List Char) :
    percentEncode encodes cs = cs ∨ '%' ∈ percentEncode encodes cs := by
  induction cs with
  | nil => exact Or.inl rfl
  | cons c cs ih =>
    cases hc : encodes c with
    | true =>
      obtain ⟨high, low, rest, heq, -⟩ := exists_percentEncode_cons hc hpoint cs
      exact Or.inr (heq ▸ List.mem_cons_self)
    | false =>
      have heq : percentEncode encodes (c :: cs) = c :: percentEncode encodes cs := by
        rw [percentEncode, List.flatMap_cons, hc]
        rfl
      rw [heq]
      exact ih.imp (congrArg (c :: ·)) (List.mem_cons_of_mem c)

end SchemaCompiler.Uri
