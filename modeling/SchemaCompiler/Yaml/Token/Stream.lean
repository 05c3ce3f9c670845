import SchemaCompiler.Yaml.Token.Block
import SchemaCompiler.Yaml.Token.Plain
import SchemaCompiler.Yaml.Token.Quoted
import SchemaCompiler.Yaml.Token.Tag

/-!
# The tokens of a YAML text

`Token.ofText?` reads the tokens of a text one after another. Two things are known only later than
where they stand: that a node is the key of a mapping, which the colon after it shows, and where a
block ends, which the indentation of a later line shows. A place where a key may begin is
remembered until its colon comes or can no longer come.
-/

namespace SchemaCompiler.Yaml

/-- A place where a key may begin: the number of tokens before it and where it stands. -/
structure KeyPlace where
  tokens : Nat
  index : Nat
  line : Nat
  column : Nat
  /-- Whether only a key can stand there. -/
  required : Bool

/-- What has been read of a text, and what may come next. -/
structure Scan where
  cursor : Cursor
  tokens : Array Token := #[]
  /-- The column of the innermost block, -1 outside all blocks. -/
  indent : Int := -1
  /-- The columns of the blocks around it. -/
  outer : List Int := []
  /-- Whether a key may begin here. -/
  keyAllowed : Bool := true
  /-- Where a key may have begun outside of brackets. -/
  blockKey : Option KeyPlace := none
  /-- Where a key may have begun within each open bracket, innermost first. -/
  flowKeys : List (Option KeyPlace) := []

namespace Scan

/-- Whether the place is within brackets. -/
def inFlow (s : Scan) : Bool := !s.flowKeys.isEmpty

/-- Where a key may have begun, at the present level of brackets. -/
def keyPlace? (s : Scan) : Option KeyPlace :=
  match s.flowKeys with
  | [] => s.blockKey
  | place :: _ => place

/-- Sets where a key may have begun, at the present level of brackets. -/
def setKeyPlace (s : Scan) (place : Option KeyPlace) : Scan :=
  match s.flowKeys with
  | [] => { s with blockKey := place }
  | _ :: rest => { s with flowKeys := place :: rest }

/-- Adds a token and moves on. -/
def push (s : Scan) (token : Token) (cursor : Cursor) : Scan :=
  { s with tokens := s.tokens.push token, cursor }

/-- Puts a token after the first `n`. -/
def insertAt (s : Scan) (n : Nat) (token : Token) : Scan :=
  { s with
    tokens := (s.tokens.extract 0 n).push token ++ s.tokens.extract n s.tokens.size }

/-- Gives up the key that may have begun; none where it was required. -/
def dropKey (s : Scan) : Option Scan :=
  match s.keyPlace? with
  | some place => if place.required then none else some (s.setKeyPlace none)
  | none => some s

/-- Remembers that a key may begin here, if one may. -/
def saveKey (s : Scan) : Option Scan :=
  if s.keyAllowed then
    (s.dropKey).map fun s' =>
      s'.setKeyPlace (some
        { tokens := s.tokens.size
          index := s.cursor.index
          line := s.cursor.line
          column := s.cursor.column
          required := !s.inFlow && s.indent == s.cursor.column })
  else some s

/-- Whether a key that began at a place can no longer get its colon: keys stand on one line and are
at most 1024 characters long. -/
def isStale (s : Scan) (place : KeyPlace) : Bool :=
  place.line < s.cursor.line || place.index + 1024 < s.cursor.index

/-- A place kept unless it is stale; none where a stale one was required. -/
def refresh (s : Scan) : Option KeyPlace → Option (Option KeyPlace)
  | none => some none
  | some place =>
    if s.isStale place then if place.required then none else some none else some (some place)

/-- Gives up every stale place of a key. -/
def dropStaleKeys (s : Scan) : Option Scan := do
  let blockKey ← s.refresh s.blockKey
  let flowKeys ← s.flowKeys.mapM s.refresh
  return { s with blockKey, flowKeys }

/-- Opens a block at a column if it is deeper than the present one. -/
def openBlock (s : Scan) (column : Nat) (at_ : Nat) (token : Token) : Scan :=
  if !s.inFlow && s.indent < column then
    { s.insertAt at_ token with indent := column, outer := s.indent :: s.outer }
  else s

/-- Ends the blocks that are deeper than a column. -/
def closeBlocks (column : Int) : List Int → Scan → Scan
  | [], s => s
  | before :: rest, s =>
    if s.indent > column then
      closeBlocks column rest
        { s with tokens := s.tokens.push .blockEnd, indent := before, outer := rest }
    else s

/-- Ends the blocks that are deeper than a column; within brackets columns do not count. -/
def dedent (s : Scan) (column : Int) : Scan :=
  if s.inFlow then s else closeBlocks column s.outer s

/-- The byte order mark, which may stand at the beginning of a line. -/
def byteOrderMark : Char := Char.ofNat 0xFEFF

/-- The place of the next token, after white space and comments. A line break outside of brackets
lets a key begin. Tabs count as white space where no key may begin. -/
def skipSpacing : Nat → Scan → Scan
  | 0, s => s
  | fuel + 1, s =>
    let marked := s.cursor.column == 0 && s.cursor.rest.head? == some byteOrderMark
    let blank (x : Char) : Bool := x == ' ' || ((s.inFlow || !s.keyAllowed) && x == '\t')
    let cursor := (if marked then s.cursor.step else s.cursor).skipWhile blank
    let cursor :=
      if cursor.rest.head? == some '#' then cursor.skipWhile fun x => !isBreak x else cursor
    if (cursor.rest.take 1).any isBreak then
      skipSpacing fuel
        { s with cursor := cursor.skipBreak, keyAllowed := s.keyAllowed || !s.inFlow }
    else { s with cursor }

/-! ### One token -/

/-- A mark between documents. -/
def documentMark (s : Scan) (token : Token) : Option Scan :=
  ((s.dedent (-1)).dropKey).map fun s =>
    { s with keyAllowed := false }.push token (s.cursor.skip 3)

/-- A directive. -/
def directive (s : Scan) : Option Scan := do
  let s ← (s.dedent (-1)).dropKey
  let (token, cursor) ← readDirective s.cursor
  return { s with keyAllowed := false }.push token cursor

/-- An opening bracket. -/
def openFlow (s : Scan) (token : Token) : Option Scan :=
  s.saveKey.map fun s =>
    { s with keyAllowed := true, flowKeys := none :: s.flowKeys }.push token s.cursor.step

/-- A closing bracket. -/
def closeFlow (s : Scan) (token : Token) : Option Scan :=
  s.dropKey.map fun s =>
    { s with keyAllowed := false, flowKeys := s.flowKeys.drop 1 }.push token s.cursor.step

/-- A comma within brackets. -/
def flowEntry (s : Scan) : Option Scan :=
  s.dropKey.map fun s => { s with keyAllowed := true }.push .flowEntry s.cursor.step

/-- The dash before an entry of a block sequence. -/
def blockEntry (s : Scan) : Option Scan :=
  if !s.inFlow && !s.keyAllowed then none
  else
    let s := s.openBlock s.cursor.column s.tokens.size .blockSequenceStart
    s.dropKey.map fun s => { s with keyAllowed := true }.push .blockEntry s.cursor.step

/-- The question mark before a key. -/
def explicitKey (s : Scan) : Option Scan :=
  if !s.inFlow && !s.keyAllowed then none
  else
    let s := s.openBlock s.cursor.column s.tokens.size .blockMappingStart
    s.dropKey.map fun s => { s with keyAllowed := !s.inFlow }.push .key s.cursor.step

/-- The colon before a value. It shows that what began at the remembered place is a key. -/
def value (s : Scan) : Option Scan :=
  match s.keyPlace? with
  | some place =>
    let s := (s.insertAt place.tokens .key).openBlock place.column place.tokens .blockMappingStart
    some ({ s.setKeyPlace none with keyAllowed := false }.push .value s.cursor.step)
  | none =>
    if !s.inFlow && !s.keyAllowed then none
    else
      let s := s.openBlock s.cursor.column s.tokens.size .blockMappingStart
      some ({ s with keyAllowed := !s.inFlow }.push .value s.cursor.step)

/-- A token with which a key may begin. -/
def keyStart (s : Scan) (read : Cursor → Option (Token × Cursor)) : Option Scan := do
  let s ← s.saveKey
  let (token, cursor) ← read s.cursor
  return { s with keyAllowed := false }.push token cursor

/-- A scalar in lines of its own. -/
def blockScalar (s : Scan) (literal : Bool) : Option Scan := do
  let s ← s.dropKey
  let (text, cursor) ← Block.read literal s.indent s.cursor.step
  return { s with keyAllowed := true }.push
    (.scalar (if literal then .literal else .folded) text) cursor

/-- A scalar without quotes. After a line break a key may begin. -/
def plainScalar (s : Scan) : Option Scan := do
  let s ← s.saveKey
  let (text, cursor, broken) ← Plain.read s.inFlow (s.indent + 1) s.cursor
  return { s with keyAllowed := broken }.push (.scalar .plain text) cursor

/-- Whether a plain scalar can begin with a character that has another one after it. -/
def startsPlain (inFlow : Bool) (c : Char) (rest : List Char) : Bool :=
  !(isSpacing c || "-?:,[]\x7b\x7d#&*!|>'\"%@\x60".contains c) ||
    (c == '-' && !(rest.take 1).any isIndent) ||
    (!inFlow && (c == '?' || c == ':') && !endsWord rest)

/-- The token at a place that is not white space. -/
def token (s : Scan) (c : Char) (rest : List Char) : Option Scan :=
  if s.cursor.column == 0 && c == '%' then s.directive
  else if s.cursor.atDocumentMark then
    s.documentMark (if c == '-' then .documentStart else .documentEnd)
  else
    match c with
    | '[' => s.openFlow .flowSequenceStart
    | '{' => s.openFlow .flowMappingStart
    | ']' => s.closeFlow .flowSequenceEnd
    | '}' => s.closeFlow .flowMappingEnd
    | ',' => s.flowEntry
    | '*' => s.keyStart fun c => (readAnchorName c).map fun (name, c) => (.alias name, c)
    | '&' => s.keyStart fun c => (readAnchorName c).map fun (name, c) => (.anchor name, c)
    | '!' => s.keyStart (readTag s.inFlow)
    | '\'' => s.keyStart fun c => (Quoted.read true c).map fun (t, c) => (.scalar .quoted t, c)
    | '"' => s.keyStart fun c => (Quoted.read false c).map fun (t, c) => (.scalar .quoted t, c)
    | c =>
      if c == '-' && endsWord rest then s.blockEntry
      else if c == '?' && (s.inFlow || endsWord rest) then s.explicitKey
      else if c == ':' && (s.inFlow || endsWord rest) then s.value
      else if c == '|' && !s.inFlow then s.blockScalar true
      else if c == '>' && !s.inFlow then s.blockScalar false
      else if startsPlain s.inFlow c rest then s.plainScalar
      else none

/-- The tokens from a place to the end of the text. -/
def run : Nat → Scan → Option (Array Token)
  | 0, _ => none
  | fuel + 1, s => do
    let s := skipSpacing (s.cursor.rest.length + 1) s
    let s ← s.dropStaleKeys
    let s := s.dedent s.cursor.column
    match s.cursor.rest with
    | [] =>
      let s ← (s.dedent (-1)).dropKey
      return s.tokens
    | c :: rest => run fuel (← s.token c rest)

end Scan

/-- The tokens of a text, if it has any reading. Every token takes at least one character, so the
fuel is never used up. -/
def Token.ofText? (text : String) : Option (List Token) :=
  let cs := text.toList
  if cs.all isAllowed then (Scan.run (cs.length + 1) { cursor := { rest := cs } }).map Array.toList
  else none

end SchemaCompiler.Yaml
