import SchemaCompiler.Text.Blank
import SchemaCompiler.Text.Split

/-!
# Punycode

The ASCII form of a label with characters outside ASCII (RFC 3492): the ASCII characters first, then
the others as differences in ascending order, in a number system of base 36 whose thresholds adapt
to the differences seen so far.
-/

namespace SchemaCompiler.Uri.Punycode

/-- The character of a digit below 36: letters come before digits. -/
def digitChar (d : Nat) : Char :=
  if d < 26 then Char.ofNat ('a'.toNat + d) else Char.ofNat ('0'.toNat + (d - 26))

/-- The value of a digit. -/
def digitOf? (c : Char) : Option Nat :=
  if 'a' ≤ c ∧ c ≤ 'z' then some (c.toNat - 'a'.toNat)
  else if 'A' ≤ c ∧ c ≤ 'Z' then some (c.toNat - 'A'.toNat)
  else if '0' ≤ c ∧ c ≤ '9' then some (c.toNat - '0'.toNat + 26)
  else none

/-- The threshold of the digit at a place: the place less the bias, kept between 1 and 26. -/
def threshold (place bias : Nat) : Nat :=
  if place ≤ bias then 1 else if bias + 26 ≤ place then 26 else place - bias

/-- Divides by 35 until the value is at most 455, counting 36 for each time. -/
def damp : Nat → Nat → Nat → Nat × Nat
  | 0, delta, k => (delta, k)
  | fuel + 1, delta, k => if 455 < delta then damp fuel (delta / 35) (k + 36) else (delta, k)

/-- The bias after a difference, where `count` characters are now placed. -/
def adapt (delta count : Nat) (first : Bool) : Nat :=
  let delta := if first then delta / 700 else delta / 2
  let delta := delta + delta / count
  let (delta, k) := damp delta delta 0
  k + 36 * delta / (delta + 38)

/-- A difference as digits from a place on, least first. -/
def encodeNumber (bias : Nat) : Nat → Nat → Nat → List Char
  | 0, _, _ => []
  | fuel + 1, place, q =>
    let t := threshold place bias
    if q < t then [digitChar q]
    else digitChar (t + (q - t) % (36 - t)) ::
      encodeNumber bias fuel (place + 36) ((q - t) / (36 - t))

/-- Where an encoding stands: what is written, and the state of the number system. -/
structure State where
  written : List Char
  delta : Nat
  bias : Nat
  placed : Nat

/-- One character of the label while the characters equal to `point` are being placed. -/
def encodeAt (point basic : Nat) (s : State) (c : Char) : State :=
  if c.toNat < point then { s with delta := s.delta + 1 }
  else if c.toNat = point then
    ⟨s.written ++ encodeNumber s.bias (s.delta + 1) 36 s.delta, 0,
      adapt s.delta (s.placed + 1) (s.placed == basic), s.placed + 1⟩
  else s

/-- The characters of a label outside ASCII, ascending, each once. -/
def extendedPoints (label : List Char) : List Nat :=
  ((label.map Char.toNat).filter (0x80 ≤ ·)).mergeSort.eraseDups

/-- The ASCII form of a label, without the mark that announces it. -/
def encode (label : List Char) : List Char :=
  let basic := label.filter fun c => c.toNat < 0x80
  let start := if basic.isEmpty then [] else basic ++ ['-']
  let step (acc : State × Nat) (point : Nat) : State × Nat :=
    let s := { acc.1 with delta := acc.1.delta + (point - acc.2) * (acc.1.placed + 1) }
    let s := label.foldl (encodeAt point basic.length) s
    ({ s with delta := s.delta + 1 }, point + 1)
  ((extendedPoints label).foldl step (⟨start, 0, 72, basic.length⟩, 0x80)).1.written

/-- A difference read from digits: its value and the digits that follow. -/
def decodeNumber? (bias : Nat) : Nat → Nat → List Char → Option (Nat × List Char)
  | _, _, [] => none
  | place, weight, c :: rest =>
    match digitOf? c with
    | none => none
    | some d =>
      let t := threshold place bias
      if d < t then some (d * weight, rest)
      else (decodeNumber? bias (place + 36) (weight * (36 - t)) rest).map fun (n, rest) =>
        (d * weight + n, rest)

/-- Places the characters of the differences; each difference has at least one digit, so a fuel
beyond the number of digits is never used up. -/
def decodeFrom : Nat → List Char → Nat → Nat → Nat → List Char → Option (List Char)
  | _, placed, _, _, _, [] => some placed
  | 0, _, _, _, _, _ => none
  | fuel + 1, placed, point, index, bias, digits =>
    match decodeNumber? bias 36 1 digits with
    | none => none
    | some (delta, rest) =>
      let count := placed.length + 1
      let position := index + delta
      let point := point + position / count
      let place := position % count
      if Nat.isValidChar point then
        decodeFrom fuel (placed.take place ++ Char.ofNat point :: placed.drop place) point
          (place + 1) (adapt delta count (index == 0)) rest
      else none

/-- The label that an ASCII form stands for. -/
def decode? (cs : List Char) : Option (List Char) :=
  let (basic, digits) :=
    match Text.splitAtLast (· == '-') cs with
    | none | some ([], _) => ([], cs)
    | some parts => parts
  if basic.all fun c => c.toNat < 0x80 then
    decodeFrom (digits.length + 1) basic 0x80 0 72 digits
  else none

end SchemaCompiler.Uri.Punycode
