import SchemaCompiler.Proofs.Uri.Characters

/-!
# Schemes that are read twice

A scheme is read in lower case (`Uri.isScheme_of_readScheme`), and in lower case it is read as it is
written (`Uri.IsScheme.readScheme`).
-/

namespace SchemaCompiler.Uri

variable {cs scheme rest : List Char} {c : Char}

/-- A character of a scheme is ASCII. -/
lemma toNat_lt_of_continuesScheme (h : continuesScheme c = true) : c.toNat < 128 := by
  have hle : ∀ d : Char, d.toNat < 128 → c ≤ d → c.toNat < 128 := fun d hd hcd =>
    Nat.lt_of_le_of_lt (UInt32.le_iff_toNat_le.mp (Char.le_def.mp hcd)) hd
  simp only [continuesScheme, Text.isAsciiAlphanumeric, Text.isAsciiLetter, Text.isAsciiDigit,
    Bool.or_eq_true, Bool.and_eq_true, decide_eq_true_eq, beq_iff_eq] at h
  rcases h with (((((⟨-, h⟩ | ⟨-, h⟩) | ⟨-, h⟩) | rfl) | rfl) | rfl)
  · exact hle 'z' (by decide) h
  · exact hle 'Z' (by decide) h
  · exact hle '9' (by decide) h
  all_goals decide

/-- What is decided for all ASCII characters of schemes holds of each character of a scheme. -/
lemma of_continuesScheme {P : Char → Prop} [DecidablePred P]
    (hall : ∀ n < 128, continuesScheme (Char.ofNat n) = true → P (Char.ofNat n))
    (h : continuesScheme c = true) : P c :=
  of_ascii (P := fun c => continuesScheme c = true → P c) hall (toNat_lt_of_continuesScheme h) h

/-- A letter can stand in a scheme. -/
lemma continuesScheme_of_isAsciiLetter (h : Text.isAsciiLetter c = true) :
    continuesScheme c = true := by
  simp [continuesScheme, Text.isAsciiAlphanumeric, h]

/-- A scheme in lower case. -/
structure IsScheme (scheme : List Char) : Prop where
  chars : ∀ c ∈ scheme, continuesScheme c = true
  lower : ∀ c ∈ scheme, c.toLower = c
  letter : ∃ c cs, scheme = c :: cs ∧ Text.isAsciiLetter c = true

/-- A scheme is read in lower case. -/
lemma isScheme_of_readScheme (h : readScheme? cs = some (scheme, rest)) : IsScheme scheme := by
  have hlower : ∀ c, continuesScheme c = true →
      continuesScheme c.toLower = true ∧ c.toLower.toLower = c.toLower :=
    fun _ hc => of_continuesScheme
      (P := fun c => continuesScheme c.toLower = true ∧ c.toLower.toLower = c.toLower)
      (by decide) hc
  unfold readScheme? at h
  split at h
  · cases h
  · next first more =>
    split at h
    · next hletter =>
      split at h
      · obtain ⟨rfl, -⟩ := Prod.mk.inj (Option.some.inj h)
        have hfirst := continuesScheme_of_isAsciiLetter hletter
        have hchar : ∀ c ∈ ((first :: more).takeWhile continuesScheme).map Char.toLower,
            continuesScheme c = true ∧ c.toLower = c := by
          intro c hc
          obtain ⟨written, hwritten, rfl⟩ := List.mem_map.mp hc
          exact hlower written (List.mem_takeWhile_imp hwritten)
        refine ⟨fun c hc => (hchar c hc).1, fun c hc => (hchar c hc).2, first.toLower, ?_⟩
        rw [List.takeWhile_cons_of_pos hfirst, List.map_cons]
        exact ⟨_, rfl, of_continuesScheme
          (P := fun c => Text.isAsciiLetter c = true → Text.isAsciiLetter c.toLower = true)
          (by decide) hfirst hletter⟩
      · cases h
    · cases h

/-- A scheme is written before the path ends. -/
lemma IsScheme.isPathChar (h : IsScheme scheme) : ∀ c ∈ scheme, isPathChar c = true :=
  fun c hc => of_continuesScheme (P := fun c => Uri.isPathChar c = true) (by decide) (h.chars c hc)

/-- A scheme in lower case is read as it is written. -/
lemma IsScheme.readScheme (h : IsScheme scheme) (rest : List Char) :
    readScheme? (scheme ++ ':' :: rest) = some (scheme, rest) := by
  obtain ⟨c, cs, heq, hletter⟩ := h.letter
  have htake : (scheme ++ ':' :: rest).takeWhile continuesScheme = scheme := by
    rw [List.takeWhile_append_of_pos h.chars, List.takeWhile_cons_of_neg (by decide),
      List.append_nil]
  have hdrop : (scheme ++ ':' :: rest).dropWhile continuesScheme = ':' :: rest := by
    rw [List.dropWhile_append_of_pos h.chars, List.dropWhile_cons_of_neg (by decide)]
  have hlower : scheme.map Char.toLower = scheme :=
    (List.map_congr_left h.lower).trans (List.map_id' scheme)
  unfold readScheme?
  split
  · next hnil => rw [heq] at hnil; cases hnil
  · next first more hfirst =>
    obtain ⟨rfl, -⟩ := List.cons.inj (hfirst.symm.trans (congrArg (· ++ ':' :: rest) heq))
    rw [if_pos hletter, hdrop, htake, hlower]
    rfl

end SchemaCompiler.Uri
