import SchemaCompiler.Text.Split
import SchemaCompiler.Uri.Percent
import SchemaCompiler.Uri.Scheme

/-!
# Hierarchical paths

The segments of a path after removal of dot segments: `.` names the segment it stands in, `..`
removes the one before, unless that is a drive, a letter with a colon or bar. Either may be written
with `%2e`.
-/

namespace SchemaCompiler.Uri

/-- The segments of a path, each in its written form. -/
abbrev Segments := List (List Char)

/-- A segment with every encoded point written as a point. -/
def plainPoints : List Char → List Char
  | '%' :: '2' :: 'e' :: rest => '.' :: plainPoints rest
  | '%' :: '2' :: 'E' :: rest => '.' :: plainPoints rest
  | c :: rest => c :: plainPoints rest
  | [] => []

/-- Whether a segment names the segment it stands in. -/
def isSingleDot (segment : List Char) : Bool := plainPoints segment == ['.']

/-- Whether a segment removes the one before. -/
def isDoubleDot (segment : List Char) : Bool := plainPoints segment == ['.', '.']

/-- A letter and a colon or bar: the name of a drive. -/
def isDrive : List Char → Bool
  | [c, d] => Text.isAsciiLetter c && (d == ':' || d == '|')
  | _ => false

/-- The segments without the last one; a drive stays. -/
def dropSegment (segments : Segments) : Segments :=
  if segments.getLast?.any isDrive then segments else segments.dropLast

/-- A segment in written form; a drive of a `file` path has a colon. -/
def writtenSegment (scheme : SchemeClass) (segment : List Char) : List Char :=
  if scheme = .file ∧ isDrive segment then segment.take 1 ++ [':']
  else percentEncode encodedInPath segment

/-- The segments that remain, given those before; a dot segment at the end leaves an empty one. -/
def resolveSegments (scheme : SchemeClass) (before : Segments) : Segments → Segments
  | [] => before
  | segment :: rest =>
    let last : Segments := if rest.isEmpty then [[]] else []
    if isDoubleDot segment then resolveSegments scheme (dropSegment before ++ last) rest
    else if isSingleDot segment then resolveSegments scheme (before ++ last) rest
    else resolveSegments scheme (before ++ [writtenSegment scheme segment]) rest

/-- The segments of a path without its first slash. Empty segments at the front of a `file` path
are left out. -/
def readSegments (scheme : SchemeClass) (cs : List Char) : Segments :=
  let segments := resolveSegments scheme [] (Text.splitOn scheme.isSlash cs)
  if scheme = .file then
    match segments.dropWhile List.isEmpty with
    | [] => [[]]
    | rest => rest
  else segments

/-- Each segment after a slash. -/
def segmentsText (segments : Segments) : List Char := segments.flatMap ('/' :: ·)

end SchemaCompiler.Uri
