import SchemaCompiler.Text.Blank

/-!
# Escapes and character classes

The parts of a regular expression that stand for one character: escapes, and classes between
brackets, which may be nested and combined.
-/

namespace SchemaCompiler.Pattern

/-- Why a text is no regular expression of the plain dialect. -/
inductive Fault where
  | malformed
  /-- A group that looks around, which the plain dialect lacks. -/
  | lookaround
  /-- A reference back to a group, which the plain dialect lacks. -/
  | backreference
deriving DecidableEq, Repr

/-- What an escape stands for. -/
inductive Escape where
  | literal (c : Char)
  /-- A class of characters; `known` says whether its name is. -/
  | characters (known : Bool)
  /-- A place between characters. -/
  | place
deriving DecidableEq

/-- A reading of the start of a text, and what follows. -/
abbrev Reading (α : Type) := Except Fault (α × List Char)

/-- A character with a meaning of its own outside classes. -/
def isMeta (c : Char) : Bool :=
  ['\\', '.', '+', '*', '?', '(', ')', '|', '[', ']', '{', '}', '^', '$', '#', '&', '-',
    '~'].contains c

/-- A character that an escape makes literal. -/
def isEscapable (c : Char) : Bool :=
  isMeta c || (c.toNat < 0x80 && !Text.isAsciiAlphanumeric c && c != '<' && c != '>')

/-- The character of a number, if there is one. -/
def character? (n : Nat) : Option Char :=
  if n < 0xD800 ∨ 0xE000 ≤ n ∧ n < 0x110000 then some (Char.ofNat n) else none

/-- A character written by hexadecimal digits: so many, or any number of them between braces. -/
def readHex (digits : Nat) (cs : List Char) : Reading Escape :=
  let (numeral, rest) :=
    match cs with
    | '{' :: cs =>
      let inner := cs.takeWhile (· != '}')
      if inner.length < cs.length then (inner, cs.drop (inner.length + 1)) else ([], [])
    | cs => if digits ≤ cs.length then (cs.take digits, cs.drop digits) else ([], [])
  match (Text.numeral? 16 numeral).bind character? with
  | some c => .ok (.literal c, rest)
  | none => .error .malformed

/-- The names of classes of characters, in lower case without marks between words. -/
def propertyNames : List String :=
  ["l", "letter", "lc", "casedletter", "lu", "uppercaseletter", "ll", "lowercaseletter", "lt",
    "titlecaseletter", "lm", "modifierletter", "lo", "otherletter", "m", "mark", "mn",
    "nonspacingmark", "mc", "spacingmark", "me", "enclosingmark", "n", "number", "nd",
    "decimalnumber", "digit", "nl", "letternumber", "no", "othernumber", "p", "punctuation",
    "punct", "pc", "connectorpunctuation", "pd", "dashpunctuation", "ps", "openpunctuation", "pe",
    "closepunctuation", "pi", "initialpunctuation", "pf", "finalpunctuation", "po",
    "otherpunctuation", "s", "symbol", "sm", "mathsymbol", "sc", "currencysymbol", "sk",
    "modifiersymbol", "so", "othersymbol", "z", "separator", "zs", "spaceseparator", "zl",
    "lineseparator", "zp", "paragraphseparator", "c", "other", "cc", "control", "cntrl", "cf",
    "format", "co", "privateuse", "cn", "unassigned", "any", "assigned", "ascii", "alphabetic",
    "alpha", "lowercase", "lower", "uppercase", "upper", "whitespace", "space", "hexdigit",
    "asciihexdigit", "idstart", "idcontinue", "xidstart", "xidcontinue", "math", "emoji", "dash",
    "ideographic", "cased", "latin", "latn", "greek", "grek", "cyrillic", "cyrl", "han", "hani",
    "hiragana", "hira", "katakana", "kana", "arabic", "arab", "hebrew", "hebr", "thai", "hangul",
    "hang", "devanagari", "deva", "armenian", "armn", "georgian", "geor", "bengali", "beng",
    "tamil", "taml", "common", "zyyy", "inherited", "zinh"]

/-- Whether a class of characters has the name, alone or after its property. -/
def isProperty (name : List Char) : Bool :=
  let last := (Text.trimBoth (fun c => c == '=' || c == ':') name).reverse.takeWhile
    fun c => c != '=' && c != ':'
  let plain := (last.reverse.filter fun c => c != '_' && c != '-' && c != ' ').map Char.toLower
  let bare :=
    match plain with
    | 'i' :: 's' :: rest => rest
    | rest => rest
  propertyNames.contains (String.ofList plain) || propertyNames.contains (String.ofList bare)

/-- A class of characters by name: one letter, or a name between braces. -/
def readProperty : List Char → Reading Escape
  | '{' :: cs =>
    let name := cs.takeWhile (· != '}')
    if name.length < cs.length then
      .ok (.characters (isProperty name), cs.drop (name.length + 1))
    else .error .malformed
  | '\\' :: _ => .error .malformed
  | c :: rest => .ok (.characters (isProperty [c]), rest)
  | [] => .error .malformed

/-- What stands between braces after `\b`: the kind of the boundary. If it is no name, the braces
belong to what follows. -/
def readBoundary (cs : List Char) : Reading Escape :=
  match cs with
  | '{' :: rest =>
    let isNameChar (c : Char) : Bool := Text.isAsciiLetter c || c == '-'
    let name := rest.takeWhile isNameChar
    if rest.isEmpty then .error .malformed
    else if name.isEmpty then .ok (.place, cs)
    else if ["start", "end", "start-half", "end-half"].contains (String.ofList name) ∧
        (rest.drop name.length).head? = some '}' then
      .ok (.place, rest.drop (name.length + 1))
    else .error .malformed
  | cs => .ok (.place, cs)

/-- An escape after its backslash. -/
def readEscape : List Char → Reading Escape
  | [] => .error .malformed
  | c :: rest =>
    if Text.isAsciiDigit c then .error .backreference
    else if isEscapable c then .ok (.literal c, rest)
    else
      match c, rest with
      | 'x', rest => readHex 2 rest
      | 'u', rest => readHex 4 rest
      | 'U', rest => readHex 8 rest
      | 'p', rest => readProperty rest
      | 'P', rest => readProperty rest
      | 'b', rest => readBoundary rest
      | 'c', letter :: rest =>
        if Text.isAsciiLetter letter then .ok (.literal (Char.ofNat (letter.toNat % 32)), rest)
        else .error .malformed
      | c, rest =>
        if ['d', 'D', 's', 'S', 'w', 'W'].contains c then .ok (.characters true, rest)
        else if ['A', 'z', 'B', '<', '>'].contains c then .ok (.place, rest)
        else
          match c with
          | 'a' => .ok (.literal (Char.ofNat 7), rest)
          | 'f' => .ok (.literal (Char.ofNat 12), rest)
          | 't' => .ok (.literal '\t', rest)
          | 'n' => .ok (.literal '\n', rest)
          | 'r' => .ok (.literal '\r', rest)
          | 'v' => .ok (.literal (Char.ofNat 11), rest)
          | _ => .error .malformed

/-! ### Classes between brackets -/

/-- The names of ASCII classes. -/
def asciiClasses : List String :=
  ["alnum", "alpha", "ascii", "blank", "cntrl", "digit", "graph", "lower", "print", "punct",
    "space", "upper", "word", "xdigit"]

/-- What follows an ASCII class such as `[:alpha:]`, given what follows its bracket. -/
def afterAsciiClass? : List Char → Option (List Char)
  | ':' :: cs =>
    let cs := if cs.head? = some '^' then cs.drop 1 else cs
    let name := cs.takeWhile (· != ':')
    match cs.drop name.length with
    | ':' :: ']' :: rest =>
      if asciiClasses.contains (String.ofList name) then some rest else none
    | _ => none
  | _ => none

/-- What follows the beginning of a class: a caret, hyphens, and a bracket that closes nothing. -/
def openClass (cs : List Char) : List Char :=
  let cs := if cs.head? = some '^' then cs.drop 1 else cs
  let afterHyphens := cs.dropWhile (· == '-')
  if afterHyphens.length < cs.length then afterHyphens
  else
    match cs with
    | ']' :: rest => rest
    | cs => cs

/-- A single character of a class, or an escape. -/
def readMember : List Char → Reading Escape
  | '\\' :: rest => readEscape rest
  | c :: rest => .ok (.literal c, rest)
  | [] => .error .malformed

/-- Whether an escape can stand in a class, and then whether its name is known. -/
def Escape.knownInClass? : Escape → Option Bool
  | literal _ => some true
  | characters known => some known
  | place => none

/-- A member of a class that is no end of a range. -/
def ofMember (member : Escape) (rest : List Char) : Reading Bool :=
  match member.knownInClass? with
  | some known => .ok (known, rest)
  | none => .error .malformed

/-- A range from a member to the one that follows. -/
def ofRange (first : Escape) (after : List Char) : Reading Bool :=
  match first, readMember after with
  | _, .error fault => .error fault
  | .literal a, .ok (.literal b, rest) =>
    if a.toNat ≤ b.toNat then .ok (true, rest) else .error .malformed
  | _, .ok _ => .error .malformed

/-- A member of a class or a range between two; whether all names in it are known. A hyphen before
a bracket or another hyphen makes no range. -/
def readRange (cs : List Char) : Reading Bool :=
  match readMember cs with
  | .error fault => .error fault
  | .ok (_, []) => .error .malformed
  | .ok (first, '-' :: after) =>
    if after.head? = some ']' ∨ after.head? = some '-' then ofMember first ('-' :: after)
    else ofRange first after
  | .ok (first, rest) => ofMember first rest

/-- The rest of a class that is open so many levels deep, up to its last bracket; `known` says
whether all names so far are. Every step consumes a character. -/
def readClass : Nat → Nat → Bool → List Char → Reading Bool
  | 0, _, _, _ => .error .malformed
  | _ + 1, _, _, [] => .error .malformed
  | steps + 1, depth, known, cs =>
    match cs with
    | '[' :: rest =>
      match afterAsciiClass? rest with
      | some rest => readClass steps depth known rest
      | none => readClass steps (depth + 1) known (openClass rest)
    | ']' :: rest =>
      if depth = 0 then .ok (known, rest) else readClass steps (depth - 1) known rest
    | '&' :: '&' :: rest => readClass steps depth known rest
    | '-' :: '-' :: rest => readClass steps depth known rest
    | '~' :: '~' :: rest => readClass steps depth known rest
    | cs =>
      match readRange cs with
      | .ok (memberKnown, rest) => readClass steps depth (known && memberKnown) rest
      | .error fault => .error fault

end SchemaCompiler.Pattern
