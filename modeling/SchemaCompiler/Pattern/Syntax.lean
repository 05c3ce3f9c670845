import SchemaCompiler.Pattern.Class

/-!
# Regular expressions

Which texts are regular expressions. `isPattern` is the plain dialect, in which a group that looks
around is taken on trust; `compiles` says whether the expression can be used for matching, where
nothing but a character, a class or a group can be repeated.
-/

namespace SchemaCompiler.Pattern

/-- What stands before a place in an expression. -/
inductive Before where
  | nothing
  /-- A setting of flags. -/
  | flags
  /-- A character, a class or a group. -/
  | item
  /-- A place between characters. -/
  | place
  /-- Something repeated. -/
  | repeated
deriving DecidableEq, Repr

/-- How far the reading of an expression has come. -/
structure Progress where
  before : Before := .nothing
  /-- For each open group, what it is once it is closed. -/
  groups : List Before := []
  /-- The names of groups. -/
  names : List (List Char) := []
  /-- Whether all that was read can be used for matching. -/
  usable : Bool := true

/-- Whether look-around and references are expected. -/
inductive Dialect where
  | plain
  | extended
deriving DecidableEq, Repr

/-! ### Repetition -/

/-- A repetition of what stands before, by a character such as `*`. -/
def Progress.repeatBy (p : Progress) (rest : List Char) : Except Fault (Progress × List Char) :=
  let rest := if rest.head? = some '?' then rest.drop 1 else rest
  match p.before with
  | .nothing | .flags => .error .malformed
  | .item => .ok ({ p with before := .repeated }, rest)
  | .place | .repeated => .ok ({ p with before := .repeated, usable := false }, rest)

/-- A plus after a repetition keeps what was matched. -/
def Progress.keepRepeated (p : Progress) : Progress := { p with before := .repeated }

/-- The largest count of a repetition. -/
def maxCount : Nat := 0xFFFFFFFF

/-- A count with white space around it. -/
def readCount? (cs : List Char) : Option Nat :=
  (Text.numeral? 10 (Text.trimBoth Text.isBlank cs)).filter (· ≤ maxCount)

/-- Whether the text between braces counts repetitions. -/
def isCount (inner : List Char) : Bool :=
  let first := inner.takeWhile (· != ',')
  match inner.drop first.length with
  | [] => (readCount? first).isSome
  | _ :: last =>
    match readCount? first with
    | none => false
    | some least =>
      if last.isEmpty then true
      else
        match readCount? last with
        | some greatest => least ≤ greatest
        | none => false

/-- A counted repetition after its brace. -/
def Progress.repeatCounted (p : Progress) (dialect : Dialect) (cs : List Char) :
    Except Fault (Progress × List Char) :=
  let inner := cs.takeWhile (· != '}')
  if inner.length < cs.length ∧ isCount inner ∧ p.before ≠ .nothing ∧ p.before ≠ .flags then
    let rest := cs.drop (inner.length + 1)
    let rest := if rest.head? = some '?' then rest.drop 1 else rest
    match p.before with
    | .place => .ok ({ p with before := .repeated, usable := false }, rest)
    | .repeated => .ok ({ p with before := .item }, rest)
    | _ => .ok ({ p with before := .repeated }, rest)
  else if dialect = .extended then .ok ({ p with before := .item }, cs)
  else .error .malformed

/-! ### Groups -/

/-- The flags of the plain dialect. -/
def isFlag (c : Char) : Bool := ['i', 'm', 's', 'U', 'u', 'R', 'x'].contains c

/-- Whether a text sets flags, each at most once, some of them after a single minus. -/
def areFlags (cs : List Char) : Bool :=
  cs.all (fun c => isFlag c || c == '-') && cs.eraseDups.length == cs.length &&
    cs.getLast? != some '-'

/-- A character that a group's name may start with, or go on with. -/
def isNameChar (isFirst : Bool) (c : Char) : Bool :=
  c == '_' || Text.isAsciiLetter c || (0x80 ≤ c.toNat && !Text.isBlank c) ||
    (!isFirst && (Text.isAsciiDigit c || c == '.' || c == '[' || c == ']'))

/-- Whether a text can name a group. -/
def isGroupName : List Char → Bool
  | [] => false
  | c :: rest => isNameChar true c && rest.all (isNameChar false)

/-- Opens a group. -/
def Progress.openGroup (p : Progress) (kind : Before) : Progress :=
  { p with before := .nothing, groups := kind :: p.groups }

/-- A group with a name. -/
def Progress.openNamed (p : Progress) (cs : List Char) : Except Fault (Progress × List Char) :=
  let name := cs.takeWhile (· != '>')
  if name.length < cs.length ∧ isGroupName name ∧ !p.names.contains name then
    .ok ({ p.openGroup .item with names := name :: p.names }, cs.drop (name.length + 1))
  else .error .malformed

/-- A group that looks around. -/
def Progress.openLookaround (p : Progress) (dialect : Dialect) (rest : List Char) :
    Except Fault (Progress × List Char) :=
  if dialect = .extended then .ok (p.openGroup .place, rest) else .error .lookaround

/-- A group that sets flags, for itself or for what follows. -/
def Progress.openFlags (p : Progress) (cs : List Char) : Except Fault (Progress × List Char) :=
  let flags := cs.takeWhile fun c => c != ':' && c != ')'
  if !areFlags flags then .error .malformed
  else
    let p := { p with usable := p.usable && !flags.contains 'R' }
    match cs.drop flags.length with
    | ':' :: rest => .ok (p.openGroup .item, rest)
    | ')' :: rest =>
      if flags.isEmpty then .error .malformed else .ok ({ p with before := .flags }, rest)
    | _ => .error .malformed

/-- A group after its parenthesis. -/
def Progress.open (p : Progress) (dialect : Dialect) (cs : List Char) :
    Except Fault (Progress × List Char) :=
  match cs with
  | '?' :: '=' :: rest => p.openLookaround dialect rest
  | '?' :: '!' :: rest => p.openLookaround dialect rest
  | '?' :: '<' :: '=' :: rest => p.openLookaround dialect rest
  | '?' :: '<' :: '!' :: rest => p.openLookaround dialect rest
  | '?' :: '<' :: rest => p.openNamed rest
  | '?' :: 'P' :: '<' :: rest => p.openNamed rest
  | '?' :: '>' :: rest =>
    if dialect = .extended then .ok (p.openGroup .item, rest) else .error .malformed
  | '?' :: rest => p.openFlags rest
  | rest => .ok (p.openGroup .item, rest)

/-- The end of a group. -/
def Progress.close (p : Progress) (rest : List Char) : Except Fault (Progress × List Char) :=
  match p.groups with
  | kind :: groups => .ok ({ p with before := kind, groups }, rest)
  | [] => .error .malformed

/-! ### Expressions -/

/-- An escape after its backslash. -/
def Progress.escape (p : Progress) (dialect : Dialect) (cs : List Char) :
    Except Fault (Progress × List Char) :=
  match readEscape cs with
  | .ok (.literal _, rest) => .ok ({ p with before := .item }, rest)
  | .ok (.characters known, rest) =>
    .ok ({ p with before := .item, usable := p.usable && known }, rest)
  | .ok (.place, rest) => .ok ({ p with before := .place }, rest)
  | .error .backreference =>
    if dialect = .extended then .ok ({ p with before := .item }, cs.dropWhile Text.isAsciiDigit)
    else .error .backreference
  | .error fault => .error fault

/-- One step into an expression. -/
def Progress.step (p : Progress) (dialect : Dialect) (c : Char) (rest : List Char) :
    Except Fault (Progress × List Char) :=
  match c with
  | '(' => p.open dialect rest
  | ')' => p.close rest
  | '|' => .ok ({ p with before := .nothing }, rest)
  | '[' =>
    match readClass (rest.length + 1) 0 true (openClass rest) with
    | .ok (known, rest) => .ok ({ p with before := .item, usable := p.usable && known }, rest)
    | .error fault => .error fault
  | '+' => if p.before = .repeated then .ok (p.keepRepeated, rest) else p.repeatBy rest
  | '*' => p.repeatBy rest
  | '?' => p.repeatBy rest
  | '{' => p.repeatCounted dialect rest
  | '\\' => p.escape dialect rest
  | '^' => .ok ({ p with before := .place }, rest)
  | '$' => .ok ({ p with before := .place }, rest)
  | _ => .ok ({ p with before := .item }, rest)

/-- Reads an expression to its end. Every step consumes a character. -/
def Progress.run (dialect : Dialect) : Nat → Progress → List Char → Except Fault Progress
  | 0, p, _ => .ok p
  | _ + 1, p, [] => if p.groups.isEmpty then .ok p else .error .malformed
  | steps + 1, p, c :: rest =>
    match p.step dialect c rest with
    | .ok (p, rest) => p.run dialect steps rest
    | .error fault => .error fault

/-- An expression read to its end. -/
def read (dialect : Dialect) (pattern : String) : Except Fault Progress :=
  let cs := pattern.toList
  Progress.run dialect (cs.length + 1) {} cs

/-- Whether a text is a regular expression. -/
def isPattern (pattern : String) : Bool :=
  match read .plain pattern with
  | .ok _ => true
  | .error .lookaround => true
  | .error _ => false

/-- Whether a text is a regular expression that can be used for matching. -/
def compiles (pattern : String) : Bool :=
  match read .plain pattern with
  | .ok p => p.usable
  | .error .lookaround =>
    match read .extended pattern with
    | .ok p => p.usable
    | .error _ => false
  | .error _ => false

end SchemaCompiler.Pattern
