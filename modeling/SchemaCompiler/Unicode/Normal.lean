import SchemaCompiler.Unicode.CombiningClass
import SchemaCompiler.Unicode.Composition

/-!
# Composed normal form

Texts that look the same can be written with precomposed characters or with marks. In the composed
normal form every pair that has a precomposed character is written by it, and marks of different
classes are in the order of their classes.
-/

namespace SchemaCompiler.Unicode

/-! ### Hangul syllables

A syllable is composed of a leading consonant, a vowel and possibly a trailing consonant. There are
19, 21 and 27 of them, and all syllables follow one another in that order. -/

/-- The first syllable. -/
def firstSyllable : Nat := 0xAC00

/-- The parts of a syllable. -/
def syllableParts? (c : Char) : Option (List Char) :=
  let n := c.toNat - firstSyllable
  if c.toNat < firstSyllable ∨ 19 * 588 ≤ n then none
  else
    let trailing := if n % 28 = 0 then [] else [Char.ofNat (0x11A7 + n % 28)]
    some (Char.ofNat (0x1100 + n / 588) :: Char.ofNat (0x1161 + n % 588 / 28) :: trailing)

/-- The syllable of two parts: a leading consonant and a vowel, or a syllable without trailing
consonant and one. -/
def syllable? (a b : Char) : Option Char :=
  let leading := a.toNat - 0x1100
  let vowel := b.toNat - 0x1161
  let opened := a.toNat - firstSyllable
  if 0x1100 ≤ a.toNat ∧ leading < 19 ∧ 0x1161 ≤ b.toNat ∧ vowel < 21 then
    some (Char.ofNat (firstSyllable + leading * 588 + vowel * 28))
  else if firstSyllable ≤ a.toNat ∧ opened < 19 * 588 ∧ opened % 28 = 0 ∧ 0x11A8 ≤ b.toNat ∧
      b.toNat ≤ 0x11C2 then
    some (Char.ofNat (a.toNat + (b.toNat - 0x11A7)))
  else none

/-! ### Decomposition -/

/-- The parts of a character. Parts of parts are followed as deep as `depth` says. -/
def parts : Nat → Char → List Char
  | 0, c => [c]
  | depth + 1, c =>
    match syllableParts? c with
    | some parts => parts
    | none =>
      match precomposed.textFor? c with
      | some pair => pair.flatMap (parts depth)
      | none => [c]

/-- How deep pairs are nested in the table. -/
def deepestPair : Nat := 4

/-- Puts a character before an ordered text, behind the marks of lower classes there. -/
def insertMark (c : Char) : List Char → List Char
  | [] => [c]
  | d :: rest =>
    if 0 < combiningClass d ∧ combiningClass d < combiningClass c then d :: insertMark c rest
    else c :: d :: rest

/-- The parts of a text, the marks in the order of their classes. -/
def decompose (cs : List Char) : List Char :=
  (cs.flatMap (parts deepestPair)).foldr insertMark []

/-! ### Composition -/

/-- The character that stands for a pair. -/
def pair? (a b : Char) : Option Char :=
  match syllable? a b with
  | some c => some c
  | none => precomposed.inverse? [a, b]

/-- Composes the text after `start`, to which the marks `between` belong. A character can be
composed with `start` if no mark of its class or a higher one stands between them. -/
def composeAfter (start : Char) (between : List Char) : List Char → List Char
  | [] => start :: between
  | c :: rest =>
    let isNext :=
      match between.getLast? with
      | none => true
      | some mark => combiningClass mark < combiningClass c
    match if isNext then pair? start c else none with
    | some composed => composeAfter composed between rest
    | none =>
      if combiningClass c = 0 then start :: between ++ composeAfter c [] rest
      else composeAfter start (between ++ [c]) rest

/-- Composes an ordered text. Marks at its beginning stay as they are. -/
def compose : List Char → List Char
  | [] => []
  | c :: rest => if combiningClass c = 0 then composeAfter c [] rest else c :: compose rest

/-- The composed normal form of a text. -/
def normalize (cs : List Char) : List Char := compose (decompose cs)

/-- Whether a text is in composed normal form. -/
def isNormal (cs : List Char) : Bool := normalize cs == cs

end SchemaCompiler.Unicode
