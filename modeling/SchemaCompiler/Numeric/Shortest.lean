import SchemaCompiler.Numeric.Binary64

/-!
# Shortest decimal text

A finite number is written with the fewest decimal digits that lie strictly nearer to it than to
any other number (ends of the rounding interval count when the significand is even), and among
those with the digits nearest the value. `Binary64.shortest` finds the digits in exact integer
arithmetic; `Binary64.text` lays them out.
-/

namespace SchemaCompiler

/-- The digits of a decimal number: the value is `digits · 10 ^ exponent`. -/
structure DecimalDigits where
  digits : Nat
  exponent : Int
deriving DecidableEq

namespace DecimalDigits

/-- How many decimal digits a number has; zero has one. -/
def length (n : Nat) : Nat := if n < 10 then 1 else length (n / 10) + 1
termination_by n
decreasing_by omega

/-- Trailing zeros move from the digits to the exponent, at most `fuel` of them. -/
def strip : Nat → Nat → Int → DecimalDigits
  | 0, digits, exponent => ⟨digits, exponent⟩
  | fuel + 1, digits, exponent =>
    if digits % 10 = 0 ∧ digits ≠ 0 then strip fuel (digits / 10) (exponent + 1)
    else ⟨digits, exponent⟩

end DecimalDigits

namespace Binary64

/-- The reals that round to a number other than zero, as a fraction of `4 · unit`: the two ends,
and whether the ends belong to it. -/
structure RoundingInterval where
  lower : Nat
  upper : Nat
  closed : Bool

/-- The interval of reals that round to `x`. Below a power of two numbers lie twice as dense. -/
def roundingInterval (x : Binary64) : RoundingInterval :=
  let step := Nat.pow 2 x.exponent
  let lowerGap := if x.significand = 0x10000000000000 ∧ x.exponent ≠ 0 then step else 2 * step
  ⟨4 * x.magnitude - lowerGap, 4 * x.magnitude + 2 * step, x.significand % 2 == 0⟩

/-- `digits · 10 ^ exponent` as a fraction: numerator and denominator. -/
def gridPoint (digits : Nat) (exponent : Int) : Nat × Nat :=
  if exponent < 0 then (digits, Nat.pow 10 exponent.natAbs)
  else (digits * Nat.pow 10 exponent.natAbs, 1)

/-- Whether a decimal lies in the interval. -/
def RoundingInterval.admits (interval : RoundingInterval) (digits : Nat) (exponent : Int) : Bool :=
  let (num, den) := gridPoint digits exponent
  let point := num * (4 * unit)
  if interval.closed then interval.lower * den ≤ point && point ≤ interval.upper * den
  else interval.lower * den < point && point < interval.upper * den

/-- The exponent of the leading decimal digit of a number other than zero: the value lies between
`10 ^ e` and `10 ^ (e + 1)`. The least positive number has exponent -324, so 344 places after the
point show every leading digit. -/
def leadingExponent (x : Binary64) : Int :=
  (DecimalDigits.length (x.magnitude * Nat.pow 10 344 / unit) : Int) - 345

/-- The two points of the grid of multiples of `10 ^ exponent` around the value. -/
def neighbours (x : Binary64) (exponent : Int) : Nat × Nat :=
  let below :=
    if exponent < 0 then x.magnitude * Nat.pow 10 exponent.natAbs / unit
    else x.magnitude / (unit * Nat.pow 10 exponent.natAbs)
  (below, below + 1)

/-- Whether the upper of two neighbours on a grid is nearer to the value, or as near and even. -/
def upperNearer (x : Binary64) (below : Nat) (exponent : Int) : Bool :=
  let (num, den) := gridPoint (2 * below + 1) exponent
  let middle := num * unit
  let value := 2 * x.magnitude * den
  middle < value || (middle == value && below % 2 == 1)

/-- The point of one grid that rounds to the value, the nearer of two. -/
def onGrid? (x : Binary64) (exponent : Int) : Option DecimalDigits :=
  let interval := x.roundingInterval
  let (below, above) := x.neighbours exponent
  match interval.admits below exponent, interval.admits above exponent with
  | true, true => some ⟨if x.upperNearer below exponent then above else below, exponent⟩
  | true, false => some ⟨below, exponent⟩
  | false, true => some ⟨above, exponent⟩
  | false, false => none

/-- Grids from `exponent` downwards, at most `fuel` of them, until one has a point. -/
def searchGrids (x : Binary64) : Nat → Int → DecimalDigits
  | 0, exponent => ⟨(x.neighbours exponent).1, exponent⟩
  | fuel + 1, exponent => (x.onGrid? exponent).getD (searchGrids x fuel (exponent - 1))

/-- The fewest digits that read back as the value, which is not zero; 17 always suffice. -/
def shortest (x : Binary64) : DecimalDigits :=
  let found := x.searchGrids 17 x.leadingExponent
  DecimalDigits.strip 20 found.digits found.exponent

/-- Digits with a point after the first, and no point when there is one digit. -/
def scientificDigits (digits : List Char) : List Char :=
  match digits with
  | [] => []
  | [d] => [d]
  | d :: rest => d :: '.' :: rest

/-- Digits whose leading one has exponent `leading`, without an exponent whatever the size, always
with a fraction part. -/
def positionalLayout (digits : List Char) (leading : Int) : List Char :=
  if 0 ≤ leading then
    let whole := leading.toNat + 1
    let fraction := digits.drop whole
    digits.take whole ++ List.replicate (whole - digits.length) '0' ++
      '.' :: (if fraction.isEmpty then ['0'] else fraction)
  else '0' :: '.' :: (List.replicate (leading.natAbs - 1) '0' ++ digits)

/-- Digits whose leading one has exponent `leading`: positional from `10 ^ (-5)` up to `10 ^ 16`,
always with a fraction part, and scientific with a signed exponent beyond. -/
def layout (digits : List Char) (leading : Int) : List Char :=
  if -5 ≤ leading ∧ leading < 16 then positionalLayout digits leading
  else
    scientificDigits digits ++
      'e' :: (if leading < 0 then '-' else '+') :: Nat.toDigits 10 leading.natAbs

/-- The text of a number in some layout of its digits: the sign, then the shortest digits laid out;
zero is `0.0` or `-0.0`. -/
def textIn (layout : List Char → Int → List Char) (x : Binary64) : String :=
  let sign := if x.negative then ['-'] else []
  if x.isZero then String.ofList (sign ++ ['0', '.', '0'])
  else
    let found := x.shortest
    let digits := Nat.toDigits 10 found.digits
    String.ofList (sign ++ layout digits (found.exponent + digits.length - 1))

/-- The text of a number, scientific where it is very large or small. -/
def text (x : Binary64) : String := x.textIn layout

/-- The text of a number, never scientific. -/
def positionalText (x : Binary64) : String := x.textIn positionalLayout

end Binary64

end SchemaCompiler
