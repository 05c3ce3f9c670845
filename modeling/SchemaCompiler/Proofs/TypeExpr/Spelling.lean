import SchemaCompiler.Proofs.Outcome
import SchemaCompiler.TypeExpr.Token

/-!
# Tokens and their spellings

Which texts spell which tokens is told by rules (`Token.Spells`): a mark is written as it is, a name
reaches as far as its characters do, and white space may stand anywhere between them.  The scanner
finds the tokens that a text spells and fails where it spells none (`Token.scan_eq_ok_iff`), so a
text spells one list of tokens at most (`Token.Spells.unique`).
-/

namespace SchemaCompiler.TypeExpr.Token

/-! ### The rules -/

/-- The characters of a name: a letter or an underscore, then any that continue a name. -/
def IsName (word : List Char) : Prop :=
  ∃ c more, word = c :: more ∧ beginsName c = true ∧ ∀ x ∈ more, continuesName x = true

/-- A word is a name if its first character begins one and the others continue it. -/
lemma isName_cons_iff {c : Char} {more : List Char} :
    IsName (c :: more) ↔ beginsName c = true ∧ more.all continuesName = true := by
  rw [List.all_eq_true]
  constructor
  · rintro ⟨_, _, heq, hbegins, hcontinues⟩
    cases heq
    exact ⟨hbegins, hcontinues⟩
  · rintro ⟨hbegins, hcontinues⟩
    exact ⟨c, more, rfl, hbegins, hcontinues⟩

instance : DecidablePred IsName
  | [] => isFalse fun ⟨_, _, heq, _⟩ => List.cons_ne_nil _ _ heq.symm
  | _ :: _ => decidable_of_iff _ isName_cons_iff.symm

/-- A text does not go on with a name that ends before it. -/
def Apart (cs : List Char) : Prop := ∀ c ∈ cs.head?, continuesName c = false

/-- A text spells a list of tokens. -/
inductive Spells : List Char → List Token → Prop
  | nil : Spells [] []
  | blank {c : Char} {cs : List Char} {tokens : List Token} (hblank : Text.isBlank c = true)
      (hcs : Spells cs tokens) : Spells (c :: cs) tokens
  | mark {mark : Token} {cs : List Char} {tokens : List Token} (hmark : ∀ word, mark ≠ name word)
      (hcs : Spells cs tokens) : Spells (mark.chars ++ cs) (mark :: tokens)
  | name {word cs : List Char} {tokens : List Token} (hword : IsName word) (hapart : Apart cs)
      (hcs : Spells cs tokens) : Spells (word ++ cs) (name word :: tokens)

variable {c : Char} {word more cs cs' : List Char} {tokens tokens' : List Token}

/-- Nothing goes on with a name. -/
lemma apart_nil : Apart [] := nofun

/-- Whether a text goes on with a name is decided by its first character. -/
lemma apart_cons : Apart (c :: cs) ↔ continuesName c = false := by simp [Apart]

/-- A text that is apart from a name stays so with more behind it. -/
lemma Apart.append (hcs : Apart cs) (hcs' : Apart cs') : Apart (cs ++ cs') := by
  cases cs with
  | nil => exact hcs'
  | cons c cs => exact hcs

/-- Spellings stand side by side, as long as the second one does not go on with a name. -/
lemma Spells.append (h : Spells cs tokens) (h' : Spells cs' tokens') (hapart : Apart cs') :
    Spells (cs ++ cs') (tokens ++ tokens') := by
  induction h with
  | nil => exact h'
  | blank hblank _ ih => exact .blank hblank ih
  | mark hmark _ ih =>
    rw [List.append_assoc]
    exact .mark hmark ih
  | name hword hbefore _ ih =>
    rw [List.append_assoc]
    exact .name hword (hbefore.append hapart) ih

/-! ### Classes of characters -/

/-- What begins a name also continues one. -/
lemma continuesName_of_beginsName (h : beginsName c = true) : continuesName c = true := by
  unfold beginsName at h
  unfold continuesName Text.isAsciiAlphanumeric
  rcases Bool.or_eq_true_iff.mp h with hletter | hscore
  · simp [hletter]
  · simp [hscore]

/-- White space does not continue a name. -/
lemma continuesName_of_isBlank (h : Text.isBlank c = true) : continuesName c = false := by
  have hcode : ∀ d : Char, c = d ↔ c.toNat = d.toNat := fun d => ⟨congrArg _, Char.toNat_inj.mp⟩
  simp only [Text.isBlank, Bool.or_eq_true, Bool.and_eq_true, beq_iff_eq, decide_eq_true_eq] at h
  simp only [continuesName, Text.isAsciiAlphanumeric, Text.isAsciiLetter, Text.isAsciiDigit,
    Char.le_def, UInt32.le_iff_toNat_le, Bool.or_eq_false_iff, Bool.and_eq_false_iff,
    decide_eq_false_iff_not, beq_eq_false_iff_ne, ne_eq, hcode, Char.toNat_val,
    Char.reduceToNat]
  omega

/-- A mark is written as one character. -/
lemma ofMark?_eq_some_iff {mark : Token} :
    ofMark? c = some mark ↔ (∀ word, mark ≠ name word) ∧ mark.chars = [c] := by
  constructor
  · intro h
    unfold ofMark? at h
    split at h <;> cases h <;> exact ⟨nofun, rfl⟩
  · rintro ⟨hmark, hchars⟩
    cases mark with
    | name word => exact absurd rfl (hmark word)
    | _ =>
      cases hchars
      rfl

/-- A mark stands before a spelling. -/
lemma Spells.cons_mark {mark : Token} (hmark : ofMark? c = some mark) (h : Spells cs tokens) :
    Spells (c :: cs) (mark :: tokens) := by
  obtain ⟨hnotName, hchars⟩ := ofMark?_eq_some_iff.mp hmark
  have hspells := Spells.mark hnotName h
  rwa [hchars] at hspells

/-- White space is no mark. -/
lemma ofMark?_of_isBlank (h : Text.isBlank c = true) : ofMark? c = none := by
  unfold ofMark?
  split <;> first | rfl | exact absurd h (by decide)

/-- A mark does not continue a name. -/
lemma continuesName_of_ofMark? {mark : Token} (h : ofMark? c = some mark) :
    continuesName c = false := by
  unfold ofMark? at h
  split at h
  all_goals first | rfl | cases h

/-! ### The scanner -/

/-- A character that does not continue a name does not begin one. -/
lemma beginsName_eq_false (h : continuesName c = false) : beginsName c = false := by
  rw [← Bool.not_eq_true] at h ⊢
  exact mt continuesName_of_beginsName h

/-- A name that has begun takes in what continues it. -/
lemma scanAfter_append (hword : word ≠ []) (hmore : ∀ x ∈ more, continuesName x = true) :
    scanAfter word (more ++ cs) = scanAfter (word ++ more) cs := by
  induction more generalizing word with
  | nil => rw [List.nil_append, List.append_nil]
  | cons x more ih =>
    obtain ⟨hx, hmore⟩ := List.forall_mem_cons.mp hmore
    have hstep : scanAfter word (x :: (more ++ cs)) = scanAfter (word ++ [x]) (more ++ cs) := by
      simp [scanAfter, hword, hx]
    rw [List.cons_append, hstep, ih (by simp) hmore, List.append_assoc, List.singleton_append]

/-- A name that has begun ends before a text that does not go on with it. -/
lemma scanAfter_of_apart (hapart : Apart cs) :
    scanAfter word cs = (scan cs).map (consName word) := by
  cases cs with
  | nil => rfl
  | cons c cs =>
    have hcontinues := apart_cons.mp hapart
    simp only [scan, scanAfter, hcontinues, beginsName_eq_false hcontinues, Bool.and_false,
      Bool.false_eq_true, if_false]
    cases ofMark? c with
    | some mark => cases scanAfter [] cs <;> rfl
    | none =>
      dsimp only
      split
      · cases scanAfter [] cs <;> rfl
      · rfl

/-- A character that can begin a name begins one. -/
lemma scan_begin (hbegins : beginsName c = true) : scan (c :: cs) = scanAfter [c] cs := by
  simp only [scan, scanAfter, List.isEmpty_nil, Bool.not_true, Bool.false_and, hbegins,
    Bool.false_eq_true, if_false, if_true]
  cases scanAfter [c] cs <;> rfl

/-- A name is scanned as one token. -/
lemma scan_name (hword : IsName word) (hapart : Apart cs) :
    scan (word ++ cs) = (scan cs).map (name word :: ·) := by
  obtain ⟨c, more, rfl, hbegins, hmore⟩ := hword
  calc scan (c :: (more ++ cs))
    _ = scanAfter [c] (more ++ cs) := scan_begin hbegins
    _ = scanAfter (c :: more) cs := scanAfter_append (List.cons_ne_nil c []) hmore
    _ = (scan cs).map (name (c :: more) :: ·) := scanAfter_of_apart hapart

/-- A mark is scanned by itself. -/
lemma scan_mark {mark : Token} (hmark : ofMark? c = some mark) :
    scan (c :: cs) = (scan cs).map (mark :: ·) := by
  have hbegins := beginsName_eq_false (continuesName_of_ofMark? hmark)
  simp only [scan, scanAfter, List.isEmpty_nil, Bool.not_true, Bool.false_and, hbegins,
    Bool.false_eq_true, if_false, hmark]
  rfl

/-- White space is skipped. -/
lemma scan_blank (hblank : Text.isBlank c = true) : scan (c :: cs) = scan cs := by
  have hbegins := beginsName_eq_false (continuesName_of_isBlank hblank)
  simp only [scan, scanAfter, List.isEmpty_nil, Bool.not_true, Bool.false_and, hbegins,
    Bool.false_eq_true, if_false, ofMark?_of_isBlank hblank, hblank, if_true]
  cases scanAfter [] cs <;> rfl

/-- Any other character is an error. -/
lemma scan_other (hbegins : beginsName c = false) (hmark : ofMark? c = none)
    (hblank : Text.isBlank c = false) : scan (c :: cs) = .error c := by
  simp [scan, scanAfter, hbegins, hmark, hblank]

/-- The scanner finds the tokens that a text spells. -/
lemma Spells.scan_eq_ok (h : Spells cs tokens) : scan cs = .ok tokens := by
  induction h with
  | nil => rfl
  | blank hblank _ ih => rw [scan_blank hblank, ih]
  | @mark mark cs tokens hmark _ ih =>
    cases mark with
    | name word => exact absurd rfl (hmark word)
    | _ => rw [chars, List.singleton_append, scan_mark rfl, ih]; rfl
  | name hword hapart _ ih =>
    rw [scan_name hword hapart, ih]
    rfl

/-- A name before a spelling that does not go on with it, or no name. -/
lemma spells_consName (hword : word = [] ∨ IsName word) (hapart : Apart cs)
    (h : Spells cs tokens) : Spells (word ++ cs) (consName word tokens) := by
  rcases hword with rfl | hword
  · exact h
  · have hcons : consName word tokens = name word :: tokens := by
      obtain ⟨c, more, rfl, -⟩ := hword
      rfl
    rw [hcons]
    exact .name hword hapart h

/-- A beginning of a name and what continues it are a longer one. -/
lemma IsName.append_singleton (hword : IsName word) (hc : continuesName c = true) :
    IsName (word ++ [c]) := by
  obtain ⟨x, more, rfl, hbegins, hmore⟩ := hword
  refine ⟨x, more ++ [c], rfl, hbegins, ?_⟩
  exact List.forall_mem_append.mpr ⟨hmore, List.forall_mem_singleton.mpr hc⟩

/-- Where no name has begun, the text spells the tokens that the scanner finds, if what is left
after its first character does. -/
lemma spells_of_scan_cons
    (hrest : ∀ {word found}, word = [] ∨ IsName word → scanAfter word cs = .ok found →
      Spells (word ++ cs) found)
    (h : scan (c :: cs) = .ok tokens) : Spells (c :: cs) tokens := by
  cases hbegins : beginsName c with
  | true =>
    rw [scan_begin hbegins] at h
    exact hrest (Or.inr ⟨c, [], rfl, hbegins, nofun⟩) h
  | false =>
    cases hmark : ofMark? c with
    | some mark =>
      rw [scan_mark hmark] at h
      obtain ⟨found, hfound, rfl⟩ := map_eq_ok_iff.mp h
      exact (hrest (Or.inl rfl) hfound).cons_mark hmark
    | none =>
      cases hblank : Text.isBlank c with
      | true =>
        rw [scan_blank hblank] at h
        exact .blank hblank (hrest (Or.inl rfl) h)
      | false =>
        rw [scan_other hbegins hmark hblank] at h
        cases h

/-- The beginning of a name and the text after it spell the tokens that the scanner finds. -/
lemma spells_of_scanAfter (hword : word = [] ∨ IsName word)
    (h : scanAfter word cs = .ok tokens) : Spells (word ++ cs) tokens := by
  induction cs generalizing word tokens with
  | nil =>
    obtain rfl : consName word [] = tokens := Except.ok.inj h
    exact spells_consName hword apart_nil .nil
  | cons c cs ih =>
    cases hcontinues : continuesName c with
    | false =>
      have hapart : Apart (c :: cs) := apart_cons.mpr hcontinues
      rw [scanAfter_of_apart hapart] at h
      obtain ⟨found, hfound, rfl⟩ := map_eq_ok_iff.mp h
      exact spells_consName hword hapart (spells_of_scan_cons ih hfound)
    | true =>
      rcases hword with rfl | hword
      · exact spells_of_scan_cons ih h
      · have hne : word ≠ [] := by
          obtain ⟨x, more, rfl, -⟩ := hword
          exact List.cons_ne_nil x more
        have hstep : scanAfter word (c :: cs) = scanAfter (word ++ [c]) cs :=
          scanAfter_append hne (List.forall_mem_singleton.mpr hcontinues)
        have hspells := ih (Or.inr (hword.append_singleton hcontinues)) (hstep ▸ h)
        rwa [List.append_assoc, List.singleton_append] at hspells

/-- The scanner succeeds exactly on spellings, with the tokens that they spell. -/
theorem scan_eq_ok_iff : scan cs = .ok tokens ↔ Spells cs tokens :=
  ⟨fun h => spells_of_scanAfter (Or.inl rfl) h, Spells.scan_eq_ok⟩

/-- A text spells one list of tokens at most. -/
theorem Spells.unique (h : Spells cs tokens) (h' : Spells cs tokens') : tokens = tokens' :=
  Except.ok.inj (h.scan_eq_ok.symm.trans h'.scan_eq_ok)

end SchemaCompiler.TypeExpr.Token
