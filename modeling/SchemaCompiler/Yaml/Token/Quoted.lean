import SchemaCompiler.Text.Blank
import SchemaCompiler.Yaml.Cursor

/-!
# Quoted scalars

Between single quotes only the quote itself is escaped, by doubling. Between double quotes a
backslash begins an escape, and one before a line break joins the lines without a space.
-/

namespace SchemaCompiler.Yaml.Quoted

/-- The character of a code point written in hexadecimal. -/
def ofHex? (digits : List Char) : Option Char :=
  (Text.numeral? 16 digits).bind fun n =>
    if h : n.isValidChar then some (Char.ofNatAux n h) else none

/-- The character of an escape after its backslash, and what follows. -/
def readEscape? : List Char → Option (Char × List Char)
  | '0' :: rest => some (Char.ofNat 0, rest)
  | 'a' :: rest => some (Char.ofNat 7, rest)
  | 'b' :: rest => some (Char.ofNat 8, rest)
  | 't' :: rest => some ('\t', rest)
  | '\t' :: rest => some ('\t', rest)
  | 'n' :: rest => some ('\n', rest)
  | 'v' :: rest => some (Char.ofNat 11, rest)
  | 'f' :: rest => some (Char.ofNat 12, rest)
  | 'r' :: rest => some ('\r', rest)
  | 'e' :: rest => some (Char.ofNat 27, rest)
  | ' ' :: rest => some (' ', rest)
  | '"' :: rest => some ('"', rest)
  | '/' :: rest => some ('/', rest)
  | '\\' :: rest => some ('\\', rest)
  | 'N' :: rest => some (Char.ofNat 0x85, rest)
  | '_' :: rest => some (Char.ofNat 0xA0, rest)
  | 'L' :: rest => some (Char.ofNat 0x2028, rest)
  | 'P' :: rest => some (Char.ofNat 0x2029, rest)
  | 'x' :: a :: b :: rest => (ofHex? [a, b]).map (·, rest)
  | 'u' :: a :: b :: c :: d :: rest => (ofHex? [a, b, c, d]).map (·, rest)
  | 'U' :: a :: b :: c :: d :: e :: f :: g :: h :: rest =>
    (ofHex? [a, b, c, d, e, f, g, h]).map (·, rest)
  | _ => none

/-- How a part of a quoted scalar without white space ends. -/
inductive PartEnd where
  | quote
  /-- A backslash before a line break. -/
  | joinedLines
  | spacing

/-- The part of a quoted scalar up to white space, a joined line or the closing quote. -/
def readPart (single : Bool) : Nat → List Char → Option (List Char × PartEnd × List Char)
  | 0, _ => none
  | _ + 1, [] => some ([], .spacing, [])
  | fuel + 1, c :: rest =>
    let continued (c : Char) (rest : List Char) :=
      (readPart single fuel rest).map fun (part, stop, rest) => (c :: part, stop, rest)
    if isSpacing c then some ([], .spacing, c :: rest)
    else if single then
      match c, rest with
      | '\'', '\'' :: rest => continued '\'' rest
      | '\'', rest => some ([], .quote, rest)
      | c, rest => continued c rest
    else if c == '"' then some ([], .quote, rest)
    else if c == '\\' then
      if (rest.take 1).any isBreak then some ([], .joinedLines, rest)
      else
        match readEscape? rest with
        | some (c, rest) => continued c rest
        | none => none
    else continued c rest

/-- A quoted scalar after its opening quote: its text, and the place after the closing quote. -/
def readFrom (single : Bool) : Nat → Cursor → Option (List Char × Cursor)
  | 0, _ => none
  | fuel + 1, c =>
    if c.atDocumentMark || c.rest.isEmpty then none
    else
      match readPart single (c.rest.length + 1) c.rest with
      | none => none
      | some (part, .quote, rest) => some (part, c.advanceTo rest)
      | some (part, stop, rest) =>
        let c := c.advanceTo rest
        let start : Gap × Cursor :=
          match stop with
          | .joinedLines => ({ first := some [] }, c.skipBreak)
          | _ => ({}, c)
        match Gap.read (-1) start.1 start.2 with
        | none => none
        | some (gap, c) =>
          (readFrom single fuel c).map fun (more, c) => (part ++ gap.text ++ more, c)

/-- A quoted scalar at its opening quote. -/
def read (single : Bool) (c : Cursor) : Option (List Char × Cursor) :=
  readFrom single (c.rest.length + 1) c.step

end SchemaCompiler.Yaml.Quoted
