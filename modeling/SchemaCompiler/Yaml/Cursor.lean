/-!
# Reading position in a YAML text

A cursor is the rest of a text with the number of characters, lines and columns before it. A line
ends at a line feed, a carriage return, both in this order, or one of the three other breaks that
YAML counts.
-/

namespace SchemaCompiler.Yaml

/-- A place in a text. -/
structure Cursor where
  rest : List Char
  index : Nat := 0
  line : Nat := 0
  column : Nat := 0

/-- A character that ends a line. -/
def isBreak (c : Char) : Bool :=
  c == '\n' || c == '\r' || c.toNat == 0x85 || c.toNat == 0x2028 || c.toNat == 0x2029

/-- A space or a tab. -/
def isIndent (c : Char) : Bool := c == ' ' || c == '\t'

/-- White space within or between lines. -/
def isSpacing (c : Char) : Bool := isIndent c || isBreak c

/-- Whether a text begins with white space or is at its end. -/
def endsWord : List Char → Bool
  | [] => true
  | c :: _ => isSpacing c

/-- A character of names in YAML: of anchors, directives and tag handles. -/
def isNameChar (c : Char) : Bool :=
  ('0' ≤ c && c ≤ '9') || ('A' ≤ c && c ≤ 'Z') || ('a' ≤ c && c ≤ 'z') || c == '_' || c == '-'

/-- A character that a YAML text may hold. -/
def isAllowed (c : Char) : Bool :=
  let n := c.toNat
  n == 0x09 || n == 0x0A || n == 0x0D || (0x20 ≤ n && n ≤ 0x7E) || n == 0x85 ||
    (0xA0 ≤ n && n ≤ 0xD7FF) || (0xE000 ≤ n && n ≤ 0xFFFD) || 0x10000 ≤ n

namespace Cursor

/-- The cursor after one character. Of a carriage return and a line feed the second ends the
line. -/
def step (c : Cursor) : Cursor :=
  match c.rest with
  | [] => c
  | '\r' :: '\n' :: rest => ⟨'\n' :: rest, c.index + 1, c.line, c.column + 1⟩
  | x :: rest =>
    if isBreak x then ⟨rest, c.index + 1, c.line + 1, 0⟩
    else ⟨rest, c.index + 1, c.line, c.column + 1⟩

/-- The cursor after some characters. -/
def skip : Nat → Cursor → Cursor
  | 0, c => c
  | n + 1, c => skip n c.step

/-- The characters up to the first that does not satisfy `p`, and the cursor there. -/
def span (p : Char → Bool) (c : Cursor) : List Char × Cursor :=
  let taken := c.rest.takeWhile p
  (taken, c.skip taken.length)

/-- The cursor at the first character that does not satisfy `p`. -/
def skipWhile (p : Char → Bool) (c : Cursor) : Cursor := (c.span p).2

/-- The cursor where the rest of the text is `rest`. -/
def advanceTo (c : Cursor) (rest : List Char) : Cursor := c.skip (c.rest.length - rest.length)

/-- The cursor after a line break, if there is one. -/
def skipBreak (c : Cursor) : Cursor :=
  match c.rest with
  | '\r' :: '\n' :: _ => c.skip 2
  | x :: _ => if isBreak x then c.step else c
  | [] => c

/-- Whether the text begins a line with one of the two marks between documents. -/
def atDocumentMark (c : Cursor) : Bool :=
  c.column == 0 &&
    match c.rest with
    | '-' :: '-' :: '-' :: rest => endsWord rest
    | '.' :: '.' :: '.' :: rest => endsWord rest
    | _ => false

end Cursor

/-! ### Folding of line breaks -/

/-- The break that a line break stands for in a scalar: a line feed, or one of the two that stand
for themselves. -/
def breakText (c : Char) : List Char :=
  if c.toNat == 0x2028 || c.toNat == 0x2029 then [c] else ['\n']

/-- White space between two words of a scalar: the spaces where there is no line break, else the
first break and those after it. -/
structure Gap where
  spaces : List Char := []
  first : Option (List Char) := none
  more : List Char := []

namespace Gap

/-- Whether the gap has a line break. -/
def isBroken (g : Gap) : Bool := g.first.isSome

/-- What the gap stands for: one line break is a space, of several the first is left out. -/
def text (g : Gap) : List Char :=
  match g.first with
  | none => g.spaces
  | some ['\n'] => if g.more.isEmpty then [' '] else g.more
  | some first => first ++ g.more

/-- The gap with a line break added. -/
def addBreak (g : Gap) (text : List Char) : Gap :=
  match g.first with
  | none => { g with spaces := [], first := some text }
  | some _ => { g with more := g.more ++ text }

/-- The gap with a space or tab added; after a line break it does not count. -/
def addSpace (g : Gap) (c : Char) : Gap :=
  if g.isBroken then g else { g with spaces := g.spaces ++ [c] }

/-- A gap continued over the white space at a place. A tab after a line break has to stand beyond
the column `tabsFrom`. -/
def readFrom (tabsFrom : Int) : Nat → Gap → Cursor → Option (Gap × Cursor)
  | 0, _, _ => none
  | fuel + 1, g, c =>
    match c.rest with
    | [] => some (g, c)
    | x :: _ =>
      if isIndent x then
        if g.isBroken && x == '\t' && decide ((c.column : Int) < tabsFrom) then none
        else readFrom tabsFrom fuel (g.addSpace x) c.step
      else if isBreak x then readFrom tabsFrom fuel (g.addBreak (breakText x)) c.skipBreak
      else some (g, c)

/-- A gap continued over the white space at a place. -/
def read (tabsFrom : Int) (g : Gap) (c : Cursor) : Option (Gap × Cursor) :=
  readFrom tabsFrom (c.rest.length + 1) g c

end Gap

end SchemaCompiler.Yaml
