/-!
# Finite binary floating-point numbers

A `Binary64` is a finite number with 53 significant bits, kept in its canonical form: every value
has one representation, except that zero has a sign. All values are whole multiples of
`2 ^ (-1074)`, so `scaled` gives each number as an exact integer in that unit, and arithmetic is
exact integer arithmetic followed by one rounding to nearest, ties to even (`roundRatio`).
-/

namespace SchemaCompiler

/-- The number `±significand · 2 ^ exponent`, in units of `2 ^ (-1074)`. The significand has at most
53 bits, and exactly so many unless the exponent is least. -/
structure Binary64 where
  negative : Bool
  significand : Nat
  exponent : Nat
  significand_lt : significand < 0x20000000000000
  exponent_le : exponent ≤ 2045
  normal : exponent = 0 ∨ 0x10000000000000 ≤ significand
deriving DecidableEq

/-- The quotient `num / den` rounded to the nearest integer; a half goes to the even neighbour. -/
def roundQuotient (num den : Nat) : Nat :=
  let q := num / den
  let r := num % den
  if 2 * r < den then q
  else if den < 2 * r then q + 1
  else if q % 2 = 0 then q else q + 1

namespace Binary64

/-- The unit in which every finite number is an integer is `1 / unit`. -/
def unit : Nat := Nat.pow 2 1074

/-- The number with these parts, if they are canonical. -/
def ofParts? (negative : Bool) (significand exponent : Nat) : Option Binary64 :=
  if h : significand < 0x20000000000000 ∧ exponent ≤ 2045 ∧
      (exponent = 0 ∨ 0x10000000000000 ≤ significand) then
    some ⟨negative, significand, exponent, h.1, h.2.1, h.2.2⟩
  else none

/-- Zero, with a sign. -/
def zero (negative : Bool) : Binary64 :=
  ⟨negative, 0, 0, by decide, by decide, .inl rfl⟩

/-- The distance from zero, in units of `2 ^ (-1074)`. -/
def magnitude (x : Binary64) : Nat := x.significand * Nat.pow 2 x.exponent

/-- The value, in units of `2 ^ (-1074)`. -/
def scaled (x : Binary64) : Int := if x.negative then -(x.magnitude : Int) else x.magnitude

/-- Whether the value is zero, of either sign. -/
def isZero (x : Binary64) : Bool := x.significand == 0

/-- The number with the opposite sign. -/
def neg (x : Binary64) : Binary64 := { x with negative := !x.negative }

/-- The finite number nearest `±num / den`, a tie going to the even significand; `none` when it
would be beyond the largest finite number. -/
def roundRatio (negative : Bool) (num den : Nat) : Option Binary64 :=
  let total := num * unit
  let exponent := Nat.log2 (total / den) - 52
  let significand := roundQuotient total (den * Nat.pow 2 exponent)
  if significand < 0x20000000000000 then ofParts? negative significand exponent
  else ofParts? negative 0x10000000000000 (exponent + 1)

/-- The finite number nearest an integer. -/
def ofInt? (n : Int) : Option Binary64 := roundRatio (n < 0) n.natAbs 1

/-- The product, rounded; `none` on overflow. -/
def mul (x y : Binary64) : Option Binary64 :=
  roundRatio (x.negative != y.negative) (x.magnitude * y.magnitude) (unit * unit)

/-- The quotient by a number other than zero, rounded; `none` on overflow. -/
def div (x y : Binary64) : Option Binary64 :=
  roundRatio (x.negative != y.negative) x.magnitude y.magnitude

/-- The finite number nearest `10 ^ exponent`. -/
def powerOfTen? (exponent : Nat) : Option Binary64 := roundRatio false (Nat.pow 10 exponent) 1

/-- The order of values; the two zeros are equal. -/
def compare (x y : Binary64) : Ordering := Ord.compare x.scaled y.scaled

/-- Whether the value is a whole number. -/
def isWhole (x : Binary64) : Bool := x.magnitude % unit == 0

theorem ofParts?_eq_some {negative : Bool} {significand exponent : Nat} {x : Binary64}
    (h : ofParts? negative significand exponent = some x) :
    x.negative = negative ∧ x.significand = significand ∧ x.exponent = exponent := by
  unfold ofParts? at h
  split at h
  · cases h; exact ⟨rfl, rfl, rfl⟩
  · cases h

@[simp] theorem scaled_zero (negative : Bool) : (zero negative).scaled = 0 := by
  cases negative <;> simp [zero, scaled, magnitude]

@[simp] theorem scaled_neg (x : Binary64) : x.neg.scaled = -x.scaled := by
  obtain ⟨negative, _, _, _, _, _⟩ := x
  cases negative <;> simp [neg, scaled, magnitude]

end Binary64

end SchemaCompiler
