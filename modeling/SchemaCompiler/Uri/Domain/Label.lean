import SchemaCompiler.Unicode.CombiningClass
import SchemaCompiler.Unicode.Direction
import SchemaCompiler.Unicode.Joining
import SchemaCompiler.Unicode.Mark

/-!
# Labels of domain names

Which labels with characters outside ASCII are allowed: they do not start with a mark, invisible
joiners stand only where they change the text, and letters of both writing directions are not mixed.
-/

namespace SchemaCompiler.Uri.Domain

open Unicode

/-! ### Joiners -/

/-- Whether a character silences the vowel of the letter before it. -/
def isVirama (c : Char) : Bool := combiningClass c == 9

/-- The mark that keeps two letters apart. -/
def nonJoiner : Char := Char.ofNat 0x200C

/-- The mark that joins two letters. -/
def joiner : Char := Char.ofNat 0x200D

/-- Whether the first character that is not transparent is in a set. -/
def reaches (set : CharacterSet) (cs : List Char) : Bool :=
  match cs.dropWhile transparent.contains with
  | [] => false
  | c :: _ => set.contains c

/-- Whether the joiners in a text are allowed, given what stands before it, last character first:
both after a virama, and the mark that keeps apart also between letters that would join. -/
def joinersAllowed (before : List Char) : List Char → Bool
  | [] => true
  | c :: rest =>
    (if c == nonJoiner then
        (before.take 1).any isVirama || (reaches joinsNext before && reaches joinsPrevious rest)
      else if c == joiner then (before.take 1).any isVirama
      else true) &&
      joinersAllowed (c :: before) rest

/-! ### Writing direction -/

/-- Whether a label holds characters of scripts written from right to left. -/
def isRightToLeft (label : List Char) : Bool :=
  label.any fun c => [.rightToLeft, .arabicLetter, .arabicNumber].contains (direction c)

/-- The class of the last character that is not a mark. -/
def lastDirection? (label : List Char) : Option Direction :=
  ((label.map direction).reverse.dropWhile (· == .nonspacingMark)).head?

/-- Whether a label keeps to one writing direction, which its first character gives. -/
def keepsDirection (label : List Char) : Bool :=
  let classes := label.map direction
  match classes with
  | [] => true
  | .leftToRight :: _ =>
    classes.all ([.leftToRight, .europeanNumber, .neutral, .nonspacingMark].contains ·) &&
      (lastDirection? label).any ([.leftToRight, .europeanNumber].contains ·)
  | .rightToLeft :: _ | .arabicLetter :: _ =>
    classes.all
        ([.rightToLeft, .arabicLetter, .arabicNumber, .europeanNumber, .neutral,
          .nonspacingMark].contains ·) &&
      (lastDirection? label).any
        ([.rightToLeft, .arabicLetter, .arabicNumber, .europeanNumber].contains ·) &&
      !(classes.contains .arabicNumber && classes.contains .europeanNumber)
  | _ :: _ => false

/-- Whether a label is allowed, whatever the other labels are. -/
def isAllowed (label : List Char) : Bool :=
  !(label.take 1).any isMark && joinersAllowed [] label

end SchemaCompiler.Uri.Domain
