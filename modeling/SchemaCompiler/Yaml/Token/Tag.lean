import SchemaCompiler.Uri.Percent
import SchemaCompiler.Yaml.Cursor
import SchemaCompiler.Yaml.Token.Basic

/-!
# Tags, anchors and directives

A tag is written in full between angle brackets, or as a suffix after a handle; `%TAG` directives
say what handles stand for.
-/

namespace SchemaCompiler.Yaml

/-- A character of the URIs that tags are; flow marks only where the URI stands by itself. -/
def isTagChar (alone : Bool) (c : Char) : Bool :=
  isNameChar c || ";/?:@&=+$.%!~*'()".contains c || (alone && ",[]".contains c)

/-- Whether every `%` of a text is followed by two hexadecimal digits. -/
def hasWholeEscapes : List Char → Bool
  | '%' :: a :: b :: rest =>
    (Text.digitValue? 16 a).isSome && (Text.digitValue? 16 b).isSome && hasWholeEscapes rest
  | '%' :: _ => false
  | _ :: rest => hasWholeEscapes rest
  | [] => true

/-- The text of a tag URI at a place, after what of it was read before. -/
def readTagUri (alone : Bool) (before : List Char) (c : Cursor) : Option (List Char × Cursor) :=
  let (raw, c) := c.span (isTagChar alone)
  if raw.isEmpty && before.isEmpty || !hasWholeEscapes raw then none
  else (Uri.percentDecode? raw).map fun uri => (before.drop 1 ++ uri, c)

/-- The characters of a tag handle at a place: `!`, or names between two of them. -/
def readHandle (c : Cursor) : Option (List Char × Cursor) :=
  match c.rest with
  | '!' :: _ =>
    let (name, c) := c.step.span isNameChar
    if c.rest.head? == some '!' then some ('!' :: (name ++ ['!']), c.step)
    else some ('!' :: name, c)
  | _ => none

/-- Whether a tag handle stands between two marks. -/
def isFullHandle (handle : List Char) : Bool := 1 < handle.length && handle.getLast? == some '!'

/-- The handle and suffix of a tag at a place. -/
def readTagParts (c : Cursor) : Option (Token × Cursor) :=
  match c.rest with
  | '!' :: '<' :: _ =>
    match readTagUri true [] (c.skip 2) with
    | some (uri, c) => if c.rest.head? == some '>' then some (.tag [] uri, c.step) else none
    | none => none
  | _ =>
    match readHandle c with
    | none => none
    | some (handle, c) =>
      if isFullHandle handle then
        (readTagUri false [] c).map fun (suffix, c) => (.tag handle suffix, c)
      else
        (readTagUri false handle c).map fun (suffix, c) =>
          (if suffix.isEmpty then .tag [] ['!'] else .tag ['!'] suffix, c)

/-- A tag at a place. White space follows it, or within brackets a comma. -/
def readTag (inFlow : Bool) (c : Cursor) : Option (Token × Cursor) :=
  match readTagParts c with
  | some (token, c) =>
    if endsWord c.rest || (inFlow && c.rest.head? == some ',') then some (token, c) else none
  | none => none

/-- The name of an anchor or alias after its mark. -/
def readAnchorName (c : Cursor) : Option (List Char × Cursor) :=
  let (name, c) := c.step.span isNameChar
  let ended := endsWord c.rest || (c.rest.take 1).any fun x => "?:,]\x7d%@\x60".contains x
  if name.isEmpty || !ended then none else some (name, c)

/-- A number of a version, of at most nine digits. -/
def readVersionNumber (c : Cursor) : Option (Nat × Cursor) :=
  let (digits, c) := c.span Text.isAsciiDigit
  if 9 < digits.length then none else (Text.numeral? 10 digits).map (·, c)

/-- The version after `%YAML`. -/
def readVersion (c : Cursor) : Option (Token × Cursor) := do
  let (major, c) ← readVersionNumber (c.skipWhile isIndent)
  if c.rest.head? != some '.' then none
  let (minor, c) ← readVersionNumber c.step
  return (.versionDirective major minor, c)

/-- The handle and its meaning after `%TAG`. -/
def readTagDirective (c : Cursor) : Option (Token × Cursor) := do
  let (handle, c) ← readHandle (c.skipWhile isIndent)
  if handle != ['!'] && !isFullHandle handle then none
  if !(c.rest.take 1).any isIndent then none
  let (start, c) ← readTagUri true [] (c.skipWhile isIndent)
  if !endsWord c.rest then none
  return (.tagDirective handle start, c)

/-- A directive at its `%`, up to the end of its line. -/
def readDirective (c : Cursor) : Option (Token × Cursor) := do
  let (name, c) := c.step.span isNameChar
  if !endsWord c.rest then none
  let (token, c) ←
    match String.ofList name with
    | "YAML" => readVersion c
    | "TAG" => readTagDirective c
    | _ => none
  let c := c.skipWhile isIndent
  let c := if c.rest.head? == some '#' then c.skipWhile fun x => !isBreak x else c
  if !c.rest.isEmpty && !(c.rest.take 1).any isBreak then none
  return (token, c.skipBreak)

end SchemaCompiler.Yaml
