import SchemaCompiler.Yaml.Cursor

/-!
# Block scalars

A scalar of whole lines after a bar (line breaks stay) or an angle bracket (lines are folded). The
header can give the indentation and what becomes of line breaks at the end.
-/

namespace SchemaCompiler.Yaml.Block

/-- What becomes of the line breaks at the end. -/
inductive Chomping where
  | strip
  /-- One break stays. -/
  | clip
  | keep
deriving DecidableEq

/-- The header of a block scalar: what becomes of breaks at the end, and the indentation beyond that
of the block around it, if given. -/
structure Header where
  chomping : Chomping := .clip
  indentation : Option Nat := none

/-- The chomping that a mark stands for. -/
def chompingOf? : Char → Option Chomping
  | '+' => some .keep
  | '-' => some .strip
  | _ => none

/-- The indentation that a digit stands for: `some none` where the character is no digit, and `none`
where it is zero, which is no indentation. -/
def indentationOf? (c : Char) : Option (Option Nat) :=
  if c == '0' then none
  else if '1' ≤ c ∧ c ≤ '9' then some (some (c.toNat - '0'.toNat))
  else some none

/-- The two marks of a header, in either order, and what follows them. -/
def readHeader? : List Char → Option (Header × List Char)
  | [] => some ({}, [])
  | a :: rest =>
    match chompingOf? a with
    | some chomping =>
      match rest with
      | [] => some ({ chomping }, [])
      | b :: rest =>
        (indentationOf? b).map fun
          | some n => ({ chomping, indentation := some n }, rest)
          | none => ({ chomping }, b :: rest)
    | none =>
      (indentationOf? a).map fun
        | some n =>
          match rest with
          | b :: rest =>
            match chompingOf? b with
            | some chomping => ({ chomping, indentation := some n }, rest)
            | none => ({ indentation := some n }, b :: rest)
          | [] => ({ indentation := some n }, [])
        | none => ({}, a :: rest)

/-- The line breaks before the next line with content, and the widest indentation seen. With a known
indentation at most so many spaces are skipped on each line, and no tab may stand before. -/
def readBreaks (indent : Option Nat) : Nat → List Char → Nat → Cursor →
    Option (List Char × Nat × Cursor)
  | 0, _, _, _ => none
  | fuel + 1, breaks, widest, c =>
    let spaces := (c.rest.takeWhile (· == ' ')).length
    let spaces :=
      match indent with
      | some n => min spaces (n - c.column)
      | none => spaces
    let c := c.skip spaces
    let widest := max widest c.column
    let beforeIndent :=
      match indent with
      | some n => decide (c.column < n)
      | none => true
    match c.rest with
    | [] => some (breaks, widest, c)
    | x :: _ =>
      if beforeIndent && x == '\t' then none
      else if isBreak x then readBreaks indent fuel (breaks ++ breakText x) widest c.skipBreak
      else some (breaks, widest, c)

/-- The lines of a block scalar: `lineBreak` is the break after the line before, `breaks` those of
empty lines after it, `spaced` whether that line began with white space. -/
def readLines (literal : Bool) (chomping : Chomping) (indent : Nat) :
    Nat → (lineBreak breaks : List Char) → (spaced : Bool) → Cursor → Option (List Char × Cursor)
  | 0, _, _, _, _ => none
  | fuel + 1, lineBreak, breaks, spaced, c =>
    if c.column = indent ∧ !c.rest.isEmpty then
      let nowSpaced := (c.rest.take 1).any isIndent
      let folded := !literal && lineBreak == ['\n'] && !spaced && !nowSpaced
      let joint :=
        if folded then if breaks.isEmpty then [' '] else breaks else lineBreak ++ breaks
      let (line, c) := c.span fun x => !isBreak x
      let lineBreak := (c.rest.take 1).flatMap breakText
      match readBreaks (some indent) (c.rest.length + 1) [] 0 c.skipBreak with
      | none => none
      | some (breaks, _, c) =>
        (readLines literal chomping indent fuel lineBreak breaks nowSpaced c).map fun (more, c) =>
          (joint ++ line ++ more, c)
    else
      some (match chomping with
        | .strip => ([], c)
        | .clip => (lineBreak, c)
        | .keep => (lineBreak ++ breaks, c))

/-- A block scalar after its first mark, inside a block of some indentation (-1 for none). -/
def read (literal : Bool) (parent : Int) (c : Cursor) : Option (List Char × Cursor) :=
  match readHeader? c.rest with
  | none => none
  | some (header, rest) =>
    let c := (c.advanceTo rest).skipWhile isIndent
    let c := if c.rest.head? == some '#' then c.skipWhile fun x => !isBreak x else c
    if !c.rest.isEmpty && !(c.rest.take 1).any isBreak then none
    else
      let c := c.skipBreak
      let given := header.indentation.map fun n => if 0 ≤ parent then parent.toNat + n else n
      match readBreaks given (c.rest.length + 1) [] 0 c with
      | none => none
      | some (breaks, widest, c) =>
        let indent := given.getD (max (max widest (parent + 1).toNat) 1)
        readLines literal header.chomping indent (c.rest.length + 1) [] breaks false c

end SchemaCompiler.Yaml.Block
