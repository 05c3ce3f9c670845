import SchemaCompiler.Numeric.Binary64
import SchemaCompiler.Text.Blank

/-!
# Reading decimal numbers

A decimal with an optional sign, fraction and exponent as the nearest double.
-/

namespace SchemaCompiler.Binary64

/-- The double nearest `±digits · 10 ^ exponent`; none beyond the range. So far out that the digits
cannot matter, the power of ten is not computed. -/
def ofDecimal? (negative : Bool) (digits : Nat) (places : Nat) (exponent : Int) : Option Binary64 :=
  if digits = 0 then some (zero negative)
  else if 400 < exponent + places then none
  else if exponent + places < -400 then some (zero negative)
  else if exponent < 0 then roundRatio negative digits (Nat.pow 10 exponent.natAbs)
  else roundRatio negative (digits * Nat.pow 10 exponent.natAbs) 1

/-- An exponent after its `e`. -/
def readExponent? (cs : List Char) : Option Int :=
  match cs with
  | '-' :: digits => (Text.numeral? 10 digits).map fun n => -(n : Int)
  | '+' :: digits => (Text.numeral? 10 digits).map Int.ofNat
  | digits => (Text.numeral? 10 digits).map Int.ofNat

/-- The double that a text consists of: digits, with a point before, among or after them, and
perhaps an exponent. None where the text is no such number or its value is out of range. -/
def ofText? (cs : List Char) : Option Binary64 :=
  let (negative, cs) :=
    match cs with
    | '-' :: rest => (true, rest)
    | '+' :: rest => (false, rest)
    | rest => (false, rest)
  let whole := cs.takeWhile Text.isAsciiDigit
  let rest := cs.dropWhile Text.isAsciiDigit
  let (fraction, rest) :=
    match rest with
    | '.' :: rest => (rest.takeWhile Text.isAsciiDigit, rest.dropWhile Text.isAsciiDigit)
    | rest => ([], rest)
  let exponent? :=
    match rest with
    | [] => some 0
    | 'e' :: rest => readExponent? rest
    | 'E' :: rest => readExponent? rest
    | _ => none
  match Text.numeral? 10 (whole ++ fraction), exponent? with
  | some digits, some exponent =>
    ofDecimal? negative digits (whole.length + fraction.length) (exponent - fraction.length)
  | _, _ => none

end SchemaCompiler.Binary64
