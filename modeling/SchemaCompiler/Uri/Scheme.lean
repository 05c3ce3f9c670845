import SchemaCompiler.Text.Blank

/-!
# Schemes

The scheme of a URI, and the schemes that have rules of their own: for these a backslash counts as a
slash, a host is required (not for `file`), and a default port is left out.
-/

namespace SchemaCompiler.Uri

/-- What rules a scheme follows. -/
inductive SchemeClass where
  | file
  /-- A scheme with a host and a default port. -/
  | special (defaultPort : Nat)
  | other
deriving DecidableEq, Repr

/-- The class of a scheme in lower case. -/
def SchemeClass.ofName (scheme : List Char) : SchemeClass :=
  match String.ofList scheme with
  | "file" => file
  | "http" | "ws" => special 80
  | "https" | "wss" => special 443
  | "ftp" => special 21
  | _ => other

/-- Whether the scheme has rules of its own. -/
def SchemeClass.isSpecial : SchemeClass → Bool
  | file | special _ => true
  | other => false

/-- A character that separates the segments of a path. -/
def SchemeClass.isSlash (c : SchemeClass) (x : Char) : Bool :=
  x == '/' || (c.isSpecial && x == '\\')

/-- A character that can stand in a scheme after its first letter. -/
def continuesScheme (c : Char) : Bool :=
  Text.isAsciiAlphanumeric c || c == '+' || c == '-' || c == '.'

/-- The scheme of a text in lower case and what follows its colon. -/
def readScheme? (cs : List Char) : Option (List Char × List Char) :=
  match cs with
  | [] => none
  | c :: _ =>
    if Text.isAsciiLetter c then
      match cs.dropWhile continuesScheme with
      | ':' :: rest => some ((cs.takeWhile continuesScheme).map Char.toLower, rest)
      | _ => none
    else none

end SchemaCompiler.Uri
