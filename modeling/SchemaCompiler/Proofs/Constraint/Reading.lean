import Mathlib.Data.List.Induction
import SchemaCompiler.Proofs.Constraint.Contributions
import SchemaCompiler.Proofs.Constraint.Entries

/-!
# Constraints that are read hold numbers of 64 bits

A number that is read from a text is an integer that 64 bits hold, or a double
(`Json.Number.fits_of_read?`): the digits of an integer are gathered into a significand of 64 bits,
and what does not fit becomes a double.  A constraint takes its numbers from such texts or from
numbers of the declaration, so they fit as well (`Constraint.fits_of_ofEntry`).
-/

namespace SchemaCompiler

/-! ### Numbers -/

namespace Json.Number

variable {cs rest : List Char} {s : Significand} {negative : Bool} {n : Number}

/-- The significand of integer digits has 64 bits. -/
lemma value_ofInteger_le (digits : List Nat) :
    (Significand.ofInteger digits).value ≤ maxUnsigned := by
  unfold Significand.ofInteger
  induction digits using List.reverseRecOn with
  | nil => exact Nat.zero_le _
  | append_singleton digits d ih =>
    rw [List.foldl_append, List.foldl_cons, List.foldl_nil]
    split
    · next hfits => exact hfits.2
    · exact ih

/-- What has become a double fits. -/
lemma fits_of_map_ofDouble {x? : Option Binary64} (h : x?.map (ofDouble negative) = some n) :
    n.Fits := by
  obtain ⟨x, -, rfl⟩ := Option.map_eq_some_iff.mp h
  trivial

/-- Integer digits alone give a number that fits. -/
lemma fits_of_ofInteger? (hs : s.value ≤ maxUnsigned) (h : ofInteger? negative s = some n) :
    n.Fits := by
  unfold ofInteger? at h
  split at h
  · cases h
    unfold maxUnsigned at hs
    unfold Fits minSigned maxUnsigned
    omega
  · split at h
    · next hsmall =>
      cases h
      unfold Fits minSigned maxUnsigned
      omega
    · exact fits_of_map_ofDouble h

/-- A significand and a written exponent give a number that fits. -/
lemma fits_of_withExponent? {down : Bool} {digits : List Nat}
    (h : withExponent? negative s down digits = some n) : n.Fits := by
  unfold withExponent? at h
  dsimp only at h
  split at h
  · split at h
    · cases h
    · cases h
      trivial
  · exact fits_of_map_ofDouble h

/-- A number with an exponent fits. -/
lemma fits_of_readExponent? (h : readExponent? negative s cs = some (n, rest)) : n.Fits := by
  unfold readExponent? at h
  dsimp only at h
  split at h
  · cases h
  · obtain ⟨number, hnumber, heq⟩ := Option.map_eq_some_iff.mp h
    cases heq
    exact fits_of_withExponent? hnumber

/-- A number whose integer digits are read fits. -/
lemma fits_of_readTail? (hs : s.value ≤ maxUnsigned)
    (h : readTail? negative s cs = some (n, rest)) : n.Fits := by
  unfold readTail? at h
  split at h
  · split at h
    · cases h
    · dsimp only at h
      split at h
      · exact fits_of_readExponent? h
      · exact fits_of_readExponent? h
      · obtain ⟨x, -, heq⟩ := Option.map_eq_some_iff.mp h
        cases heq
        trivial
  · exact fits_of_readExponent? h
  · exact fits_of_readExponent? h
  · obtain ⟨number, hnumber, heq⟩ := Option.map_eq_some_iff.mp h
    cases heq
    exact fits_of_ofInteger? hs hnumber

/-- A number that is read fits. -/
theorem fits_of_read? (h : read? cs = some (n, rest)) : n.Fits := by
  unfold read? at h
  dsimp only at h
  split at h
  · cases h
  · cases h
  · exact fits_of_readTail? (value_ofInteger_le _) h

/-- A number that a text consists of fits. -/
lemma fits_of_ofText? {text : String} (h : ofText? text = some n) : n.Fits := by
  unfold ofText? at h
  split at h
  · next number rest hread =>
    split at h
    · cases h
      exact fits_of_read? hread
    · cases h
  · cases h

end Json.Number

/-! ### Constraints -/

namespace Constraint

/-- The numbers that an entry holds as values of constraints are those that 64 bits hold. -/
def Entry.Fits : Entry → Prop
  | bare _ => True
  | keyed members => ∀ member ∈ members, ∀ n, valueParameter member.2 = .number n → n.Fits

variable {c : Constraint} {found : Json}

/-- A signed integer has 64 bits. -/
lemma fits_of_signed? {n : Json.Number} {value : Int} (h : n.signed? = some value) :
    Json.Number.minSigned ≤ value ∧ value ≤ Json.Number.maxSigned := by
  unfold Json.Number.signed? at h
  split at h
  · split at h
    · next hfits =>
      cases h
      exact hfits
    · cases h
  · cases h

/-- An integer that is read has 64 bits. -/
lemma fits_of_readInteger {value : Int} (h : readInteger found = .ok value) :
    Json.Number.minSigned ≤ value ∧ value ≤ Json.Number.maxSigned := by
  unfold readInteger at h
  dsimp only at h
  split at h
  · next n hvalue =>
    obtain rfl : n = value := Except.ok.inj h
    split at hvalue
    · exact fits_of_signed? hvalue
    · obtain ⟨number, -, hsigned⟩ := Option.bind_eq_some_iff.mp hvalue
      exact fits_of_signed? hsigned
    · cases hvalue
  · cases h

/-- A decimal that is read fits, if a number that stands there does. -/
lemma fits_of_readDecimal {value : Json.Number} (hfound : ∀ n, found = .number n → n.Fits)
    (h : readDecimal found = .ok value) : value.Fits := by
  unfold readDecimal at h
  dsimp only at h
  split at h
  · next n hvalue =>
    obtain rfl : n = value := Except.ok.inj h
    split at hvalue
    · next number =>
      obtain rfl : number = n := Option.some.inj hvalue
      exact hfound number rfl
    · exact Json.Number.fits_of_ofText? hvalue
    · cases hvalue
  · cases h

/-- A constraint that stands alone has no numbers to fit. -/
lemma StandsAlone.fits (h : c.StandsAlone) : c.Fits := by
  cases c with
  | min | max | decimalMin | decimalMax => exact h.elim
  | _ => trivial

/-- A constraint that parameters hold fits, if a number that is their value does. -/
lemma HeldBy.fits {parameters : Json}
    (hparameters : ∀ n, valueParameter parameters = .number n → n.Fits)
    (h : c.HeldBy parameters) : c.Fits := by
  cases c with
  | min value | max value => exact fits_of_readInteger h
  | decimalMin value inclusive | decimalMax value inclusive =>
    exact fits_of_readDecimal hparameters h.1
  | _ => trivial

/-- A constraint that is read fits, if the numbers of its entry do. -/
theorem fits_of_ofEntry {entry : Entry} (hentry : entry.Fits) (h : ofEntry entry = .ok c) :
    c.Fits := by
  rcases ofEntry_eq_ok_iff.mp h with ⟨-, halone⟩ | ⟨parameters, rfl, hheld⟩
  · exact halone.fits
  · exact hheld.fits (hentry _ (List.mem_singleton_self _))

end Constraint

end SchemaCompiler
