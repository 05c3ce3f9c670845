import SchemaCompiler.Numeric.Shortest
import SchemaCompiler.Text.Blank

/-!
# JSON numbers

A number is an integer of 64 bits, signed or not, or a finite double. `Number.compare` is the order
used to choose the tighter of two bounds, `Number.text` the written form, and `Number.read?` the
reader: it gathers digits into a 64-bit significand, drops the digits that do not fit, and scales
by a power of ten in floating-point arithmetic, so the last bit may differ from the nearest double.
-/

namespace SchemaCompiler

/-- A JSON number. -/
inductive Json.Number where
  | int (value : Int)
  | float (value : Binary64)
deriving DecidableEq

namespace Json.Number

/-- The least 64-bit signed integer. -/
def minSigned : Int := -0x8000000000000000

/-- The greatest 64-bit signed integer. -/
def maxSigned : Int := 0x7FFFFFFFFFFFFFFF

/-- The greatest 64-bit unsigned integer. -/
def maxUnsigned : Nat := 0xFFFFFFFFFFFFFFFF

/-- The value, if it is written as an integer that fits 64 bits with sign. -/
def signed? : Number → Option Int
  | int n => if minSigned ≤ n ∧ n ≤ maxSigned then some n else none
  | float _ => none

/-- The value, if it is written as an integer that fits 64 bits without sign. -/
def unsigned? : Number → Option Nat
  | int n => if 0 ≤ n ∧ n ≤ maxUnsigned then some n.toNat else none
  | float _ => none

/-- The nearest double. -/
def double? : Number → Option Binary64
  | int n => Binary64.ofInt? n
  | float x => some x

/-- The order of two numbers: exact between integers, else by their nearest doubles. -/
def compare : Number → Number → Ordering
  | int m, int n => Ord.compare m n
  | a, b =>
    match a.double?, b.double? with
    | some x, some y => x.compare y
    | _, _ => .eq

/-- The number of opposite sign. -/
def negate : Number → Number
  | int n => if minSigned < n ∧ n ≤ maxSigned then int (-n)
    else ((Binary64.ofInt? n).map fun x => float x.neg).getD (int (-n))
  | float x => float x.neg

/-- Integers in decimal, doubles with the fewest digits that read back. -/
def text : Number → String
  | int n => toString n
  | float x => x.text

/-! ### Reading -/

/-- The digits at the start of a list, and what follows them. -/
def spanDigits : List Char → List Nat × List Char
  | [] => ([], [])
  | c :: cs =>
    match Text.digitValue? 10 c with
    | some d => let (ds, rest) := spanDigits cs; (d :: ds, rest)
    | none => ([], c :: cs)

/-- A significand that fits 64 bits, and the power of ten it stands at. -/
structure Significand where
  value : Nat
  exponent : Int

/-- Integer digits: from the first one that does not fit, each only raises the exponent. -/
def Significand.ofInteger (digits : List Nat) : Significand :=
  digits.foldl
    (fun acc d =>
      if acc.exponent = 0 ∧ acc.value * 10 + d ≤ maxUnsigned then ⟨acc.value * 10 + d, 0⟩
      else ⟨acc.value, acc.exponent + 1⟩)
    ⟨0, 0⟩

/-- Fraction digits: from the first one that does not fit, they are ignored. -/
def Significand.withFraction : Significand → List Nat → Significand
  | acc, [] => acc
  | acc, d :: digits =>
    if acc.value * 10 + d ≤ maxUnsigned then
      withFraction ⟨acc.value * 10 + d, acc.exponent - 1⟩ digits
    else acc

/-- The largest power of ten by which a double is scaled in one step. -/
def maxPower : Nat := 308

/-- A double divided by `10 ^ exponent`, for an exponent up to `maxPower`. -/
def lowerOnce (x : Binary64) (exponent : Nat) : Option Binary64 :=
  (Binary64.powerOfTen? exponent).bind x.div

/-- A double divided by the largest power a number of times; zero stays zero. -/
def lowerRepeatedly : Nat → Binary64 → Option Binary64
  | 0, x => some x
  | steps + 1, x =>
    if x.isZero then some x else (lowerOnce x maxPower).bind (lowerRepeatedly steps)

/-- A double divided by `10 ^ exponent`: by the largest power as often as the exponent exceeds it,
then by what is left. -/
def lower (x : Binary64) (exponent : Nat) : Option Binary64 :=
  let steps := (exponent - 1) / maxPower
  (lowerRepeatedly steps x).bind (lowerOnce · (exponent - maxPower * steps))

/-- A double multiplied by `10 ^ exponent`; `none` when the result is out of range. -/
def raise (x : Binary64) (exponent : Nat) : Option Binary64 :=
  if exponent ≤ maxPower then (Binary64.powerOfTen? exponent).bind x.mul
  else if x.isZero then some x
  else none

/-- The double of a significand at its power of ten: the significand is rounded, then scaled. -/
def Significand.toDouble? (s : Significand) : Option Binary64 :=
  match Binary64.ofInt? s.value with
  | some x => if 0 ≤ s.exponent then raise x s.exponent.natAbs else lower x s.exponent.natAbs
  | none => none

/-- The signed number of a magnitude. -/
def ofDouble (negative : Bool) (x : Binary64) : Number := float (if negative then x.neg else x)

/-- The number of integer digits alone: an integer where 64 bits hold it and it is not `-0`. -/
def ofInteger? (negative : Bool) (s : Significand) : Option Number :=
  if s.exponent = 0 ∧ !negative then some (int s.value)
  else if s.exponent = 0 ∧ 0 < s.value ∧ s.value ≤ 0x8000000000000000 then some (int (-s.value))
  else s.toDouble?.map (ofDouble negative)

/-- The largest written exponent that is read as a number; beyond it only the sign counts. -/
def maxExponent : Nat := 0x7FFFFFFF

/-- The number of a significand followed by a written exponent. -/
def withExponent? (negative : Bool) (s : Significand) (down : Bool) (digits : List Nat) :
    Option Number :=
  let exponent := digits.foldl (fun n d => n * 10 + d) 0
  if maxExponent < exponent then
    if s.value ≠ 0 ∧ !down then none else some (ofDouble negative (Binary64.zero false))
  else
    let shifted := if down then s.exponent - exponent else s.exponent + exponent
    (Significand.toDouble? ⟨s.value, shifted⟩).map (ofDouble negative)

/-- The sign and digits of an exponent after its `e`, and what follows. -/
def readExponent? (negative : Bool) (s : Significand) (cs : List Char) :
    Option (Number × List Char) :=
  let (down, cs) :=
    match cs with
    | '+' :: rest => (false, rest)
    | '-' :: rest => (true, rest)
    | rest => (false, rest)
  match spanDigits cs with
  | ([], _) => none
  | (digits, rest) => (withExponent? negative s down digits).map (·, rest)

/-- What follows the integer digits: a fraction, an exponent, both or neither. -/
def readTail? (negative : Bool) (s : Significand) : List Char → Option (Number × List Char)
  | '.' :: cs =>
    match spanDigits cs with
    | ([], _) => none
    | (digits, rest) =>
      let s := s.withFraction digits
      match rest with
      | 'e' :: rest => readExponent? negative s rest
      | 'E' :: rest => readExponent? negative s rest
      | rest => s.toDouble?.map fun x => (ofDouble negative x, rest)
  | 'e' :: cs => readExponent? negative s cs
  | 'E' :: cs => readExponent? negative s cs
  | cs => (ofInteger? negative s).map (·, cs)

/-- A number at the start of a list, and what follows it. A leading zero stands alone. -/
def read? (cs : List Char) : Option (Number × List Char) :=
  let (negative, cs) :=
    match cs with
    | '-' :: rest => (true, rest)
    | rest => (false, rest)
  match spanDigits cs with
  | ([], _) => none
  | (0 :: _ :: _, _) => none
  | (digits, rest) => readTail? negative (Significand.ofInteger digits) rest

/-- White space between JSON tokens. -/
def isSpace (c : Char) : Bool := c == ' ' || c == '\t' || c == '\n' || c == '\r'

/-- The number that a text consists of, apart from white space around it. -/
def ofText? (s : String) : Option Number :=
  match read? (s.toList.dropWhile isSpace) with
  | some (n, rest) => if rest.all isSpace then some n else none
  | none => none

/-! ### Powers of ten -/

/-- `10 ^ exponent`: an integer while 64 bits hold it, else the double that its text reads as. -/
def powerOfTen? (exponent : Nat) : Option Number :=
  let power := Nat.pow 10 exponent
  if power ≤ maxUnsigned then some (int power)
  else (Significand.toDouble? ⟨1, exponent⟩).map float

/-- `10 ^ (-places)`: the double that its text reads as. -/
def decimalStep? (places : Nat) : Option Number :=
  (Significand.toDouble? ⟨1, -(places : Int)⟩).map float

end Json.Number

end SchemaCompiler
