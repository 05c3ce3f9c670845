import SchemaCompiler.Uri.Host
import SchemaCompiler.Uri.Path

/-!
# Absolute URIs

A URI in canonical parts, read by the rules that browsers follow: tabs and line breaks are left out,
the scheme and the host of special schemes are in lower case, default ports are left out, dot
segments are resolved, and what a part cannot hold is percent-encoded.
-/

namespace SchemaCompiler

/-- The authority of a URI: who, where, and at which port. -/
structure Uri.Authority where
  /-- User name and password in written form, with the final `@`; empty when there is neither. -/
  userinfo : List Char
  host : List Char
  port : Option Nat

/-- An absolute URI. -/
structure Uri where
  scheme : List Char
  authority : Option Uri.Authority
  /-- The path in written form. -/
  path : List Char
  /-- Whether the path is a sequence of segments. -/
  hierarchical : Bool
  /-- Whether a query or a fragment follows, empty ones included. -/
  hasSuffix : Bool

namespace Uri

/-- A character that ends the path. -/
def endsPath (c : Char) : Bool := c == '?' || c == '#'

/-- Whether a query or a fragment follows the path. -/
def hasSuffixIn (cs : List Char) : Bool := cs.any endsPath

/-- The part of a text before a query or fragment. -/
def beforeSuffix (cs : List Char) : List Char := cs.takeWhile fun c => !endsPath c

/-! ### Authorities -/

/-- Where an authority ends. -/
def endsAuthority (scheme : SchemeClass) (c : Char) : Bool := endsPath c || scheme.isSlash c

/-- User name and password in written form, with a final `@` unless both are empty. An empty
password loses its colon. -/
def userinfoText (cs : List Char) : List Char :=
  let user := percentEncode encodedInUserinfo (cs.takeWhile (· != ':'))
  let password := percentEncode encodedInUserinfo ((cs.dropWhile (· != ':')).drop 1)
  let written := if password.isEmpty then user else user ++ ':' :: password
  if written.isEmpty then [] else written ++ ['@']

/-- The host at the start of an authority, up to a colon outside brackets. -/
def spanHost : Bool → List Char → List Char × List Char
  | _, [] => ([], [])
  | inBrackets, c :: cs =>
    if c == ':' && !inBrackets then ([], c :: cs)
    else
      let inBrackets := if c == '[' then true else if c == ']' then false else inBrackets
      let (host, rest) := spanHost inBrackets cs
      (c :: host, rest)

/-- The port after a host; none when no digits follow or it is the default. -/
def readPort (scheme : SchemeClass) (cs : List Char) : Except Fault (Option Nat) :=
  if cs.isEmpty then .ok none
  else
    match Text.numeral? 10 cs with
    | some n =>
      if 65535 < n then .error .invalidPort
      else .ok (if scheme = .special n then none else some n)
    | none => .error .invalidPort

/-- The authority of a scheme other than `file`. A lone `@` is none when a path or more follows. -/
def readAuthority (scheme : SchemeClass) (cs rest : List Char) : Except Fault Authority := do
  if cs = ['@'] ∧ !rest.isEmpty then throw .emptyHost
  let (userinfo, hostAndPort) := (Text.splitAtLast (· == '@') cs).getD ([], cs)
  let (host, rest) := spanHost false hostAndPort
  if scheme.isSpecial && host.isEmpty then throw .emptyHost
  let host ← if scheme.isSpecial then Host.canonical host else Host.verbatim host
  let portText? : Option (List Char) :=
    match rest with
    | ':' :: port => some port
    | _ => none
  if host.isEmpty && portText?.isSome then throw .emptyHost
  let port ←
    match portText? with
    | some port => readPort scheme port
    | none => pure none
  let written := userinfoText userinfo
  if host.isEmpty && !written.isEmpty then throw .emptyHost
  return ⟨written, host, port⟩

/-- The authority as written, after `//`. -/
def Authority.text (a : Authority) : List Char :=
  a.userinfo ++ a.host ++
    match a.port with
    | some n => ':' :: Nat.toDigits 10 n
    | none => []

/-! ### Schemes of each class -/

/-- The path after an authority: empty only where the scheme allows it. -/
def pathAfterAuthority (scheme : SchemeClass) (cs : List Char) : List Char :=
  match cs with
  | [] => if scheme.isSpecial then ['/'] else []
  | c :: rest =>
    segmentsText (readSegments scheme (if scheme.isSlash c then rest else c :: rest))

/-- What follows `//` of a scheme other than `file`. -/
def afterSlashes (scheme : List Char) (cs : List Char) : Except Fault Uri := do
  let kind := SchemeClass.ofName scheme
  let rest := cs.dropWhile fun c => !endsAuthority kind c
  let authority ← readAuthority kind (cs.takeWhile fun c => !endsAuthority kind c) rest
  return ⟨scheme, some authority, pathAfterAuthority kind (beforeSuffix rest), true,
    hasSuffixIn rest⟩

/-- What follows the colon of a scheme without rules of its own. -/
def afterOtherScheme (scheme : List Char) : List Char → Except Fault Uri
  | '/' :: '/' :: rest => afterSlashes scheme rest
  | '/' :: rest =>
    .ok ⟨scheme, none, segmentsText (readSegments .other (beforeSuffix rest)), true,
      hasSuffixIn rest⟩
  | cs => .ok ⟨scheme, none, percentEncode isControl (beforeSuffix cs), false, hasSuffixIn cs⟩

/-- The host of a `file` URI; the local machine is not written. -/
def readFileHost (cs : List Char) : Except Fault (List Char) := do
  if cs.isEmpty then return []
  let host ← Host.canonical cs
  return if host = "localhost".toList then [] else host

/-- A `file` URI with a host and the rest of its text. Where the path names a drive, the file is on
the local machine. -/
def fileUri (host cs : List Char) : Uri :=
  let path := beforeSuffix cs
  let path := if (path.take 1).any SchemeClass.file.isSlash then path.drop 1 else path
  let segments := readSegments .file path
  let host := if segments.any isDrive then [] else host
  ⟨"file".toList, some ⟨[], host, none⟩, segmentsText segments, true, hasSuffixIn cs⟩

/-- What follows the colon of `file`. -/
def afterFile (cs : List Char) : Except Fault Uri := do
  let isSlash := SchemeClass.file.isSlash
  match cs with
  | a :: b :: rest =>
    if isSlash a && isSlash b then
      let inHost (c : Char) : Bool := !(isSlash c || endsPath c)
      let hostText := rest.takeWhile inHost
      if isDrive hostText then return fileUri [] rest
      return fileUri (← readFileHost hostText) (rest.dropWhile inHost)
    else return fileUri [] cs
  | _ => return fileUri [] cs

/-- A character at either end that does not belong to a URI. -/
def isMargin (c : Char) : Bool := c.toNat ≤ 0x20

/-- A character that is left out wherever it stands. -/
def isIgnored (c : Char) : Bool := c == '\t' || c == '\n' || c == '\r'

/-- The URI that a text is. -/
def parse (text : List Char) : Except Fault Uri :=
  let cs := (Text.trimBoth isMargin text).filter fun c => !isIgnored c
  match readScheme? cs with
  | none => .error .relative
  | some (scheme, rest) =>
    match SchemeClass.ofName scheme with
    | .file => afterFile rest
    | .special n =>
      afterSlashes scheme (rest.dropWhile (SchemeClass.special n).isSlash)
    | .other => afterOtherScheme scheme rest

/-- The canonical text. A path that starts with two slashes is set off from an absent authority. -/
def text (u : Uri) : List Char :=
  u.scheme ++ ':' ::
    match u.authority with
    | some a => '/' :: '/' :: (a.text ++ u.path)
    | none =>
      match u.path with
      | '/' :: '/' :: _ => '/' :: '.' :: u.path
      | path => path

end Uri

end SchemaCompiler
