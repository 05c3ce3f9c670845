import SchemaCompiler.Text.Split
import SchemaCompiler.Unicode.Normal
import SchemaCompiler.Uri.Domain.Label
import SchemaCompiler.Uri.Domain.Mapping
import SchemaCompiler.Uri.Punycode

/-!
# Domain names

The ASCII form of a domain name: its characters are mapped and composed, and each label that is
still outside ASCII is written in Punycode after the mark `xn--`. A label that is written so already
has to stand for one that is mapped and composed.
-/

namespace SchemaCompiler.Uri.Domain

/-- An ASCII character that no domain name of a URI holds. -/
def isForbidden (c : Char) : Bool :=
  c.toNat < 0x20 || c.toNat == 0x7F ||
    [' ', '#', '%', '/', ':', '<', '>', '?', '@', '[', '\\', ']', '^', '|'].contains c

/-- An ASCII character. -/
def isAscii (c : Char) : Bool := c.toNat < 0x80

/-- The characters of a domain name, mapped and composed. -/
def mapped? (name : List Char) : Option (List Char) :=
  (name.mapM map?).map fun texts => Unicode.normalize texts.flatten

/-- The mark of a label in Punycode. -/
def mark : List Char := ['x', 'n', '-', '-']

/-- The label that a mapped label stands for. -/
def readLabel? (label : List Char) : Option (List Char) :=
  match Text.dropStart? mark label with
  | none => some label
  | some encoded =>
    match Punycode.decode? encoded with
    | some decoded =>
      if !decoded.all isAscii && mapped? decoded == some decoded then some decoded else none
    | none => none

/-- A label in ASCII. -/
def labelToAscii (label : List Char) : List Char :=
  if label.all isAscii then label else mark ++ Punycode.encode label

/-- The ASCII form of a domain name; `none` when it is not one. -/
def toAscii? (name : List Char) : Option (List Char) := do
  let mapped ← mapped? name
  let labels ← (Text.splitOn (· == '.') mapped).mapM readLabel?
  guard (labels.all isAllowed)
  guard (!labels.any isRightToLeft || labels.all keepsDirection)
  guard (!mapped.any isForbidden)
  return ['.'].intercalate (labels.map labelToAscii)

end SchemaCompiler.Uri.Domain
