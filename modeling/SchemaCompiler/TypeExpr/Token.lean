import SchemaCompiler.Text.Blank

/-!
# Tokens of type expressions

A type expression is a sequence of names and the marks `<`, `>`, `,` and `?`, with white space
anywhere between. `Token.ofText?` reads the longest name at each point.
-/

namespace SchemaCompiler.TypeExpr

/-- A token of a type expression. -/
inductive Token where
  | name (text : List Char)
  | left
  | right
  | comma
  | question
deriving DecidableEq, Repr

namespace Token

/-- The token as written. -/
def chars : Token → List Char
  | name text => text
  | left => ['<']
  | right => ['>']
  | comma => [',']
  | question => ['?']

/-- The token as written. -/
def text (t : Token) : String := String.ofList t.chars

/-- The token that one character makes by itself. -/
def ofMark? : Char → Option Token
  | '<' => some left
  | '>' => some right
  | ',' => some comma
  | '?' => some question
  | _ => none

/-- Whether a character can begin a name. -/
def beginsName (c : Char) : Bool := Text.isAsciiLetter c || c == '_'

/-- Whether a character can continue a name. -/
def continuesName (c : Char) : Bool :=
  Text.isAsciiAlphanumeric c || c == '_' || c == '.' || c == '-' || c == '$'

/-- The name that was read before some tokens; no name where no character was read. -/
def consName (word : List Char) (tokens : List Token) : List Token :=
  if word.isEmpty then tokens else name word :: tokens

/-- The tokens of a list of characters after the beginning `word` of a name; an error is the first
character that no token has. -/
def scanAfter (word : List Char) : List Char → Except Char (List Token)
  | [] => .ok (consName word [])
  | c :: cs =>
    if !word.isEmpty && continuesName c then scanAfter (word ++ [c]) cs
    else if beginsName c then (scanAfter [c] cs).map (consName word)
    else
      match ofMark? c with
      | some mark => (scanAfter [] cs).map fun tokens => consName word (mark :: tokens)
      | none => if Text.isBlank c then (scanAfter [] cs).map (consName word) else .error c

/-- The tokens of a list of characters, or its first character that no token has. -/
def scan (cs : List Char) : Except Char (List Token) := scanAfter [] cs

end Token

end SchemaCompiler.TypeExpr
