import SchemaCompiler.Text.Blank
import SchemaCompiler.Text.Split

/-!
# Tables of characters

Tables that give properties of characters, written as text: items between blanks, in hexadecimal
numbers. `41-5a` is a span of characters, and `100-12e/2` every second character of a span. What
follows `=` replaces the characters: `b2=32,33` gives a text for each, `bd=31+2044+32` a text of
three characters, and `41-5a=61` moves all characters of the span by the same distance.
-/

namespace SchemaCompiler.Unicode

/-- The characters from `first` to `last` whose distance to `first` is a multiple of `step`. -/
structure Span where
  first : Nat
  last : Nat
  step : Nat
deriving DecidableEq, Repr

/-- Whether a character is in a span. -/
def Span.contains (s : Span) (n : Nat) : Bool :=
  s.first ≤ n && n ≤ s.last && (n - s.first) % s.step == 0

/-- The parts of a text before and after the first place of a character. -/
def cutAt (mark : Char) (cs : List Char) : List Char × List Char :=
  (cs.takeWhile (· != mark), (cs.dropWhile (· != mark)).drop 1)

/-- A hexadecimal number; `default` stands for an empty text. -/
def hexadecimal (default : Nat) (cs : List Char) : Nat := (Text.numeral? 16 cs).getD default

/-- A span as written. -/
def Span.ofText (cs : List Char) : Span :=
  let (ends, step) := cutAt '/' cs
  let (first, last) := cutAt '-' ends
  let first := hexadecimal 0 first
  ⟨first, hexadecimal first last, hexadecimal 1 step⟩

/-- The items of a table. -/
def items (table : String) : List (List Char) :=
  (Text.splitOn Text.isBlank table.toList).filter fun item => !item.isEmpty

/-- A set of characters, as spans. -/
abbrev CharacterSet := List Span

/-- The set that a table lists. -/
def CharacterSet.ofText (table : String) : CharacterSet := (items table).map Span.ofText

/-- Whether a character is in a set. -/
def CharacterSet.contains (set : CharacterSet) (c : Char) : Bool :=
  set.any fun span => span.contains c.toNat

/-- Texts for the characters of a span. A single text is meant for the first character; a character
further on is as far from it as the characters of the span are apart. -/
structure Replacement where
  span : Span
  texts : List (List Nat)
deriving DecidableEq, Repr

/-- The text for a character of the span. -/
def Replacement.text (r : Replacement) (n : Nat) : List Nat :=
  match r.texts with
  | [text] => text.map (· + (n - r.span.first))
  | texts => texts.getD (n - r.span.first) []

/-- A replacement as written. -/
def Replacement.ofText (cs : List Char) : Replacement :=
  let (span, values) := cutAt '=' cs
  let span := Span.ofText span
  let texts := (Text.splitOn (· == ',') values).map fun text =>
    ((Text.splitOn (· == '+') text).filter fun n => !n.isEmpty).map (hexadecimal 0)
  ⟨{ span with last := max span.last (span.first + texts.length - 1) }, texts⟩

/-- Texts that replace characters. -/
abbrev Replacements := List Replacement

/-- The replacements that a table lists. -/
def Replacements.ofText (table : String) : Replacements := (items table).map Replacement.ofText

/-- The text that replaces a character; `none` if nothing does. -/
def Replacements.textFor? (rs : Replacements) (c : Char) : Option (List Char) :=
  ((rs : List Replacement).find? fun r => r.span.contains c.toNat).map fun r =>
    (r.text c.toNat).map Char.ofNat

/-- The character that a text replaces. -/
def Replacements.inverse? (rs : Replacements) (text : List Char) : Option Char :=
  rs.findSome? fun r =>
    ((List.range ((r.span.last - r.span.first) / r.span.step + 1)).map fun k =>
        r.span.first + k * r.span.step).findSome? fun n =>
      if r.text n = text.map Char.toNat then some (Char.ofNat n) else none

end SchemaCompiler.Unicode
