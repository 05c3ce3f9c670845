import SchemaCompiler.Text.Blank
import SchemaCompiler.Text.Split

/-!
# URI references by their grammar

Which texts are URI references of the generic grammar. It is stricter than what browsers read: every
part has its own characters, and a `%` stands before two hexadecimal digits only.
-/

namespace SchemaCompiler.Uri.Reference

/-- A character that stands for itself in every part. -/
def isUnreserved (c : Char) : Bool :=
  Text.isAsciiAlphanumeric c || c == '-' || c == '.' || c == '_' || c == '~'

/-- A delimiter without a meaning of its own. -/
def isSubDelimiter (c : Char) : Bool :=
  ['!', '$', '&', '\'', '(', ')', '*', '+', ',', ';', '='].contains c

/-- Whether a text has only characters that `allows` selects and encoded bytes. -/
def consistsOf (allows : Char → Bool) : List Char → Bool
  | [] => true
  | '%' :: a :: b :: rest =>
    (Text.digitValue? 16 a).isSome && (Text.digitValue? 16 b).isSome && consistsOf allows rest
  | c :: rest =>
    (isUnreserved c || isSubDelimiter c || allows c) && c != '%' && consistsOf allows rest

/-- The address between brackets: hexadecimal digits, colons and points, or a later form. -/
def isAddress (cs : List Char) : Bool :=
  match cs with
  | 'v' :: rest => !rest.isEmpty && rest.all fun c => isUnreserved c || isSubDelimiter c || c == ':'
  | cs =>
    2 ≤ cs.length && cs.contains ':' &&
      cs.all fun c => (Text.digitValue? 16 c).isSome || c == ':' || c == '.'

/-- Whether a text is a port: digits alone. -/
def isPort (cs : List Char) : Bool := cs.all Text.isAsciiDigit

/-- Whether a text is a host, with a port after a colon or not. -/
def isHostAndPort (cs : List Char) : Bool :=
  match cs with
  | '[' :: rest =>
    let address := rest.takeWhile (· != ']')
    isAddress address &&
      match rest.drop address.length with
      | [']'] => true
      | ']' :: ':' :: port => isPort port
      | _ => false
  | cs =>
    let name := cs.takeWhile (· != ':')
    consistsOf (fun _ => false) name && isPort ((cs.drop name.length).drop 1)

/-- Whether a text is an authority. -/
def isAuthority (cs : List Char) : Bool :=
  match Text.splitAtLast (· == '@') cs with
  | some (user, rest) => consistsOf (· == ':') user && isHostAndPort rest
  | none => isHostAndPort cs

/-- Whether a text is a path. -/
def isPath (cs : List Char) : Bool := consistsOf (fun c => c == '/' || c == ':' || c == '@') cs

/-- Whether a text is a query or a fragment. -/
def isSuffix (cs : List Char) : Bool :=
  consistsOf (fun c => c == '/' || c == ':' || c == '@' || c == '?') cs

/-- Whether a text is what follows a scheme, without query and fragment. -/
def isHierarchy (cs : List Char) : Bool :=
  match cs with
  | '/' :: '/' :: rest =>
    let authority := rest.takeWhile (· != '/')
    isAuthority authority && isPath (rest.drop authority.length)
  | cs => isPath cs

/-- Whether a text is a scheme. -/
def isScheme (cs : List Char) : Bool :=
  (cs.head?.any Text.isAsciiLetter) &&
    cs.all fun c => Text.isAsciiAlphanumeric c || c == '+' || c == '-' || c == '.'

/-- Whether a text without query and fragment is a URI or a relative reference. In a relative one
the first segment has no colon. -/
def isBare (cs : List Char) : Bool :=
  let first := cs.takeWhile fun c => c != ':' && c != '/'
  match cs.drop first.length with
  | ':' :: rest => isScheme first && isHierarchy rest
  | _ => isHierarchy cs

/-- Whether a text is a URI reference. -/
def isReference (text : String) : Bool :=
  let cs := text.toList
  let beforeFragment := cs.takeWhile (· != '#')
  let path := beforeFragment.takeWhile (· != '?')
  isBare path && isSuffix ((beforeFragment.drop path.length).drop 1) &&
    isSuffix ((cs.drop beforeFragment.length).drop 1)

end SchemaCompiler.Uri.Reference
