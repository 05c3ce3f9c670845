import SchemaCompiler.Yaml.Cursor

/-!
# Plain scalars

A scalar without quotes: words with gaps between, up to a colon before white space, a comment, a
mark between documents, a line that is not indented enough, or, within brackets, a mark of a flow
collection.
-/

namespace SchemaCompiler.Yaml.Plain

/-- A mark of flow collections, which ends a plain scalar within brackets. -/
def isFlowMark (c : Char) : Bool := [',', '[', ']', '{', '}'].contains c

/-- The word at the start of a text; none where a colon within brackets touches a mark. -/
def readWord (inFlow : Bool) : List Char → Option (List Char)
  | [] => some []
  | c :: rest =>
    if isSpacing c then some []
    else if c == ':' && inFlow && (rest.take 1).any fun d => isFlowMark d || d == '?' then none
    else if c == ':' && endsWord rest then some []
    else if inFlow && isFlowMark c then some []
    else (readWord inFlow rest).map (c :: ·)

/-- A scalar from a word on, given the gap before it: its text, the place after it and whether that
place follows a line break. -/
def readFrom (inFlow : Bool) (indent : Int) :
    Nat → Gap → Cursor → Option (List Char × Cursor × Bool)
  | 0, _, _ => none
  | fuel + 1, gap, c =>
    if c.atDocumentMark || c.rest.head? == some '#' then some ([], c, gap.isBroken)
    else
      match readWord inFlow c.rest with
      | none => none
      | some word =>
        let c := c.skip word.length
        let text := if word.isEmpty then [] else gap.text ++ word
        if c.rest.isEmpty || !endsWord c.rest then
          some (text, c, word.isEmpty && gap.isBroken)
        else
          match Gap.read indent {} c with
          | none => none
          | some (next, c) =>
            if !inFlow && decide ((c.column : Int) < indent) then some (text, c, next.isBroken)
            else
              (readFrom inFlow indent fuel next c).map fun (more, c, broken) =>
                (text ++ more, c, broken)

/-- A plain scalar at a place: its text, the place after it and whether that place follows a line
break. Lines after the first are indented by at least `indent`. -/
def read (inFlow : Bool) (indent : Int) (c : Cursor) : Option (List Char × Cursor × Bool) :=
  readFrom inFlow indent (c.rest.length + 1) {} c

end SchemaCompiler.Yaml.Plain
