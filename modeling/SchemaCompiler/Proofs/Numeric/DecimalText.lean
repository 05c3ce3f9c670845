import SchemaCompiler.Json.Number
import SchemaCompiler.Proofs.Numeric.Shortest

/-!
# Numbers as they are printed

A reader of decimal texts that does not round (`DecimalText.read?`), and what it makes of the text
of a number: an integer is printed as itself and a double as its shortest digits, whichever layout
they are given (`Json.Number.read?_text`).
-/

namespace SchemaCompiler

namespace DecimalText

/-! ### The reader -/

/-- The number that some digits denote; there must be one at least. -/
def natural? (cs : List Char) : Option Nat :=
  if cs ≠ [] ∧ cs.all Char.isDigit then some (Nat.ofDigitChars 10 cs 0) else none

/-- The exponent after the other digits: none, or signed digits after an `e`. -/
def exponent? : List Char → Option ℤ
  | [] => some 0
  | 'e' :: '-' :: cs => (natural? cs).map fun n : Nat => -(n : ℤ)
  | 'e' :: '+' :: cs => (natural? cs).map fun n : Nat => (n : ℤ)
  | _ => none

/-- The digits after a point, of which there must be one at least, and what follows them. -/
def fraction? : List Char → Option (List Char × List Char)
  | '.' :: cs =>
    if cs.takeWhile Char.isDigit = [] then none
    else some (cs.takeWhile Char.isDigit, cs.dropWhile Char.isDigit)
  | cs => some ([], cs)

/-- The value of digits at a power of ten. -/
def valueOf (digits : List Char) (exponent : ℤ) : ℚ :=
  Nat.ofDigitChars 10 digits 0 * 10 ^ exponent

/-- The exact value of a decimal without a sign. -/
def unsigned? (cs : List Char) : Option ℚ :=
  let whole := cs.takeWhile Char.isDigit
  if whole = [] then none
  else
    (fraction? (cs.dropWhile Char.isDigit)).bind fun (fraction, rest) =>
      (exponent? rest).map fun exponent =>
        valueOf (whole ++ fraction) (exponent - fraction.length)

/-- The exact value of a decimal. -/
def read? (s : String) : Option ℚ :=
  match s.toList with
  | '-' :: cs => (unsigned? cs).map fun value => -value
  | cs => unsigned? cs

/-! ### Digits -/

variable {cs digits whole fraction rest : List Char} {value : ℚ} {exponent : ℤ}

/-- Text that begins with no digit. -/
def NoDigit (cs : List Char) : Prop := ∀ c ∈ cs.head?, c.isDigit = false

/-- Nothing begins with no digit. -/
lemma noDigit_nil : NoDigit [] := nofun

/-- Digits are taken up to the first other character. -/
lemma takeWhile_digits (hdigits : ∀ c ∈ digits, c.isDigit = true) (hrest : NoDigit rest) :
    (digits ++ rest).takeWhile Char.isDigit = digits ∧
      (digits ++ rest).dropWhile Char.isDigit = rest := by
  rw [List.takeWhile_append_of_pos hdigits, List.dropWhile_append_of_pos hdigits]
  cases rest with
  | nil => exact ⟨List.append_nil _, rfl⟩
  | cons c rest =>
    have hc : ¬c.isDigit = true := by simpa [NoDigit] using hrest
    rw [List.takeWhile_cons_of_neg hc, List.dropWhile_cons_of_neg hc, List.append_nil]
    exact ⟨rfl, rfl⟩

/-- Digits denote a number. -/
lemma natural?_eq (hne : digits ≠ []) (hdigits : ∀ c ∈ digits, c.isDigit = true) :
    natural? digits = some (Nat.ofDigitChars 10 digits 0) :=
  if_pos ⟨hne, List.all_eq_true.mpr hdigits⟩

/-- A number is written in digits. -/
lemma isDigit_of_mem_digits (n : Nat) : ∀ c ∈ Nat.toDigits 10 n, c.isDigit = true := fun _ hc =>
  Nat.isDigit_of_mem_toDigits (by decide) (by decide) hc

/-- The digits of a number denote it. -/
lemma natural?_toDigits (n : Nat) : natural? (Nat.toDigits 10 n) = some n := by
  rw [natural?_eq Nat.toDigits_ne_nil (isDigit_of_mem_digits n), Nat.ofDigitChars_ten_toDigits]

/-- A decimal of whole digits alone. -/
lemma unsigned?_whole (hne : whole ≠ []) (hwhole : ∀ c ∈ whole, c.isDigit = true)
    (hrest : NoDigit rest) (hpoint : rest.head? ≠ some '.')
    (hexponent : exponent? rest = some exponent) :
    unsigned? (whole ++ rest) = some (valueOf whole exponent) := by
  obtain ⟨htake, hdrop⟩ := takeWhile_digits hwhole hrest
  have hfraction : fraction? rest = some ([], rest) := by
    unfold fraction?
    split
    · next heq => exact absurd rfl hpoint
    · rfl
  unfold unsigned?
  dsimp only
  rw [htake, hdrop, if_neg hne, hfraction, Option.bind_some, hexponent, Option.map_some,
    List.append_nil, List.length_nil, Nat.cast_zero, sub_zero]

/-- A decimal with digits after the point. -/
lemma unsigned?_point (hne : whole ≠ []) (hwhole : ∀ c ∈ whole, c.isDigit = true)
    (hne' : fraction ≠ []) (hfraction : ∀ c ∈ fraction, c.isDigit = true) (hrest : NoDigit rest)
    (hexponent : exponent? rest = some exponent) :
    unsigned? (whole ++ '.' :: (fraction ++ rest)) =
      some (valueOf (whole ++ fraction) (exponent - fraction.length)) := by
  have hpoint : NoDigit ('.' :: (fraction ++ rest)) := by simp [NoDigit]
  obtain ⟨htake, hdrop⟩ := takeWhile_digits hwhole hpoint
  obtain ⟨htake', hdrop'⟩ := takeWhile_digits hfraction hrest
  have hread : fraction? ('.' :: (fraction ++ rest)) = some (fraction, rest) := by
    rw [fraction?, htake', hdrop', if_neg hne']
  unfold unsigned?
  dsimp only
  rw [htake, hdrop, if_neg hne, hread, Option.bind_some, hexponent, Option.map_some]

/-- A decimal without a sign is read without one. -/
lemma read?_unsigned (h : unsigned? cs = some value) : read? (String.ofList cs) = some value := by
  unfold read?
  rw [String.toList_ofList]
  split
  · -- Nothing without a sign begins with one.
    cases h
  · exact h

/-- A sign turns the value round. -/
lemma read?_negative (h : unsigned? cs = some value) :
    read? (String.ofList ('-' :: cs)) = some (-value) := by
  unfold read?
  rw [String.toList_ofList]
  change (unsigned? cs).map (fun value => -value) = some (-value)
  rw [h, Option.map_some]

/-! ### Layouts -/

/-- Zeros that follow whole digits raise the power of ten. -/
lemma valueOf_append_zeros (digits : List Char) (zeros : Nat) (exponent : ℤ) :
    valueOf (digits ++ List.replicate zeros '0') exponent = valueOf digits (zeros + exponent) := by
  have hten : (10 : ℚ) ≠ 0 := by norm_num
  unfold valueOf
  rw [Nat.ofDigitChars_append, Nat.ofDigitChars_replicate_zero, zpow_add₀ hten, zpow_natCast]
  push_cast
  ring

/-- Zeros that precede the digits do not count. -/
lemma valueOf_zeros_append (digits : List Char) (zeros : Nat) (exponent : ℤ) :
    valueOf (List.replicate zeros '0' ++ digits) exponent = valueOf digits exponent := by
  unfold valueOf
  rw [Nat.ofDigitChars_append, Nat.ofDigitChars_replicate_zero, Nat.mul_zero]

/-- Zeros are digits. -/
lemma isDigit_of_mem_zeros {zeros : Nat} : ∀ c ∈ List.replicate zeros '0', c.isDigit = true := by
  intro c hc
  rw [List.eq_of_mem_replicate hc]
  decide

/-- Digits without an exponent are read as the digits at their place. -/
lemma unsigned?_positionalLayout (hne : digits ≠ []) (hdigits : ∀ c ∈ digits, c.isDigit = true)
    (leading : ℤ) : unsigned? (Binary64.positionalLayout digits leading) =
      some (valueOf digits (leading + 1 - digits.length)) := by
  have hzero : ∀ c ∈ ['0'], c.isDigit = true := List.forall_mem_singleton.mpr (by decide)
  have hnone : exponent? [] = some 0 := rfl
  unfold Binary64.positionalLayout
  split
  · next hleading =>
    dsimp only
    by_cases hshort : digits.length ≤ leading.toNat + 1
    · -- All digits are before the point.
      have hwhole : ∀ c ∈ digits ++ List.replicate (leading.toNat + 1 - digits.length) '0',
          c.isDigit = true := List.forall_mem_append.mpr ⟨hdigits, isDigit_of_mem_zeros⟩
      have hread := unsigned?_point (List.append_ne_nil_of_left_ne_nil hne _) hwhole
        (List.cons_ne_nil _ _) hzero noDigit_nil hnone
      rw [List.take_of_length_le hshort, List.drop_eq_nil_of_le hshort]
      refine hread.trans (congrArg some ?_)
      rw [← List.replicate_one, List.append_assoc, ← List.replicate_add, valueOf_append_zeros]
      congr 1
      rw [List.length_replicate]
      omega
    · have hlong : leading.toNat + 1 - digits.length = 0 := by omega
      have hwhole : digits.take (leading.toNat + 1) ≠ [] := by simp [hne]
      have hfraction : digits.drop (leading.toNat + 1) ≠ [] := by
        rw [Ne, List.drop_eq_nil_iff]
        exact hshort
      have hread := unsigned?_point hwhole
        (fun c hc => hdigits c (List.mem_of_mem_take hc)) hfraction
        (fun c hc => hdigits c (List.mem_of_mem_drop hc)) noDigit_nil hnone
      rw [hlong, List.replicate_zero, List.append_nil, if_neg (by simpa using hfraction)]
      rw [List.append_nil, List.take_append_drop, List.length_drop] at hread
      rw [hread]
      congr 2
      omega
  · next hleading =>
    have hfraction : ∀ c ∈ List.replicate (leading.natAbs - 1) '0' ++ digits, c.isDigit = true :=
      List.forall_mem_append.mpr ⟨isDigit_of_mem_zeros, hdigits⟩
    have hread := unsigned?_point (List.cons_ne_nil _ _) hzero
      (List.append_ne_nil_of_right_ne_nil _ hne) hfraction noDigit_nil hnone
    rw [List.append_nil] at hread
    refine hread.trans (congrArg some ?_)
    rw [← List.replicate_one, ← List.append_assoc, ← List.replicate_add, valueOf_zeros_append]
    congr 1
    rw [List.length_append, List.length_replicate]
    omega

/-- A signed exponent is read. -/
lemma exponent?_signed (exponent : ℤ) :
    exponent? ('e' :: (if exponent < 0 then '-' else '+') :: Nat.toDigits 10 exponent.natAbs) =
      some exponent := by
  split
  · next hneg =>
    rw [exponent?, natural?_toDigits, Option.map_some, Int.ofNat_natAbs_of_nonpos hneg.le, neg_neg]
  · next hnonneg =>
    rw [exponent?, natural?_toDigits, Option.map_some, Int.natAbs_of_nonneg (not_lt.mp hnonneg)]

/-- Digits are read as the digits at their place, in either layout. -/
theorem unsigned?_layout (hne : digits ≠ []) (hdigits : ∀ c ∈ digits, c.isDigit = true)
    (leading : ℤ) : unsigned? (Binary64.layout digits leading) =
      some (valueOf digits (leading + 1 - digits.length)) := by
  unfold Binary64.layout
  split
  · exact unsigned?_positionalLayout hne hdigits leading
  · have hexponent := exponent?_signed leading
    generalize hsign : (if leading < 0 then '-' else '+') = sign at hexponent ⊢
    generalize hplaces : Nat.toDigits 10 leading.natAbs = places at hexponent ⊢
    have hletter : NoDigit ('e' :: sign :: places) := by simp [NoDigit]
    cases digits with
    | nil => exact absurd rfl hne
    | cons first rest =>
      have hfirst : ∀ c ∈ [first], c.isDigit = true :=
        List.forall_mem_singleton.mpr (hdigits first List.mem_cons_self)
      cases rest with
      | nil =>
        have hread := unsigned?_whole (List.cons_ne_nil _ _) hfirst hletter (by simp) hexponent
        refine hread.trans (congrArg some (congrArg (valueOf _) ?_))
        simp
      | cons second rest =>
        have hread := unsigned?_point (List.cons_ne_nil _ _) hfirst (List.cons_ne_nil second rest)
          (fun c hc => hdigits c (List.mem_cons_of_mem _ hc)) hletter hexponent
        refine hread.trans (congrArg some (congrArg (valueOf _) ?_))
        simp only [List.length_cons]
        push_cast
        ring

end DecimalText

namespace Binary64

variable (x : Binary64)

/-- The value of the shortest digits; there are none for zero. -/
def shortestSize : ℚ := if x.isZero then 0 else x.shortest.value

/-- The value of the shortest digits, with the sign. -/
def shortestValue : ℚ := if x.negative then -x.shortestSize else x.shortestSize

/-- The text of a double is read as its shortest digits. -/
lemma read?_text : DecimalText.read? x.text = some x.shortestValue := by
  have hread : ∀ {cs : List Char} {size : ℚ}, DecimalText.unsigned? cs = some size →
      DecimalText.read? (String.ofList ((if x.negative then ['-'] else []) ++ cs)) =
        some (if x.negative then -size else size) := by
    intro cs size hcs
    split
    · exact DecimalText.read?_negative hcs
    · exact DecimalText.read?_unsigned hcs
  unfold text textIn shortestValue shortestSize
  dsimp only
  by_cases hzero : x.isZero = true
  · rw [if_pos hzero, if_pos hzero]
    have hnought : DecimalText.unsigned? ['0', '.', '0'] = some 0 :=
      congrArg some (zero_mul _)
    exact hread hnought
  · rw [if_neg hzero, if_neg hzero]
    have hdigits := DecimalText.isDigit_of_mem_digits x.shortest.digits
    refine hread ?_
    rw [DecimalText.unsigned?_layout Nat.toDigits_ne_nil hdigits, DecimalText.valueOf,
      Nat.ofDigitChars_ten_toDigits, DecimalDigits.value, sub_add_cancel, add_sub_cancel_right]

end Binary64

namespace Json.Number

/-- The value that a number is printed as. -/
def printed (a : Number) : ℚ := (DecimalText.read? a.text).getD 0

/-- The text of an integer is read as the integer. -/
lemma read?_text_int (n : ℤ) : DecimalText.read? (int n).text = some (n : ℚ) := by
  have hread : ∀ m : Nat, DecimalText.unsigned? (Nat.toDigits 10 m) = some (m : ℚ) := by
    intro m
    have hdigits := DecimalText.isDigit_of_mem_digits m
    have hnone : DecimalText.exponent? [] = some 0 := rfl
    have hwhole := DecimalText.unsigned?_whole Nat.toDigits_ne_nil hdigits
      DecimalText.noDigit_nil nofun hnone
    rw [List.append_nil, DecimalText.valueOf, Nat.ofDigitChars_ten_toDigits, zpow_zero,
      mul_one] at hwhole
    exact hwhole
  rw [text, Int.toString_eq_repr, Int.repr_eq_if]
  split
  · next hnonneg =>
    have hcast : ((n.toNat : ℤ) : ℚ) = n := by rw [Int.toNat_of_nonneg hnonneg]
    rw [Nat.repr_eq_ofList_toDigits, ← hcast]
    exact DecimalText.read?_unsigned (hread n.toNat)
  · next hneg =>
    have hcast : -(((-n).toNat : ℤ) : ℚ) = n := by
      rw [Int.toNat_of_nonneg (by omega), Int.cast_neg, neg_neg]
    rw [Nat.repr_eq_ofList_toDigits, ← hcast]
    have hsigned := DecimalText.read?_negative (hread (-n).toNat)
    rw [String.ofList_cons] at hsigned
    exact hsigned

/-- An integer is printed as it is. -/
lemma printed_int (n : ℤ) : (int n).printed = n := by rw [printed, read?_text_int, Option.getD_some]

/-- A double is printed as its shortest digits. -/
lemma printed_float (x : Binary64) : (float x).printed = x.shortestValue := by
  rw [printed, text, x.read?_text, Option.getD_some]

/-- The text of every number is read. -/
theorem read?_text (a : Number) : DecimalText.read? a.text = some a.printed := by
  cases a with
  | int n => rw [printed_int, read?_text_int]
  | float x => rw [printed_float, text, x.read?_text]

example : (int (-40)).text = "-40" ∧ DecimalText.read? "-40" = some (-40) ∧
    DecimalText.read? "-9.5e-3" = some (-19 / 2000) := by decide +kernel

end Json.Number

end SchemaCompiler
