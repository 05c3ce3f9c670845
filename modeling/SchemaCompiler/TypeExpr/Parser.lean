import SchemaCompiler.TypeExpr.Basic
import SchemaCompiler.TypeExpr.Token

/-!
# Reading type expressions

The grammar of a type expression is

    expr := base '?'?
    base := 'list' '<' expr '>' | 'set' '<' expr '>' | 'map' '<' expr ',' expr '>'
          | 'any' | 'object' | scalar keyword | name

where a name neither ends with a point nor has two points in a row. `TypeExpr.parse` says for a
text outside the grammar what was wrong at the first place where no expression can continue.
-/

namespace SchemaCompiler.TypeExpr

/-- Why a text is no type expression. -/
inductive Fault where
  | unexpectedCharacter (c : Char)
  | trailing (token : Token)
  | expected (wanted : Token) (found : Option Token)
  | expectedType (found : Option Token)
  | repeatedQuestion
  | malformedName (name : List Char)
deriving DecidableEq

/-- A token as a message shows it. -/
def Fault.describe : Option Token → String
  | some token => "'" ++ token.text ++ "'"
  | none => "end of input"

/-- The fault in words. -/
def Fault.message : Fault → String
  | unexpectedCharacter c => "unexpected character '" ++ c.toString ++ "'"
  | trailing token => "unexpected '" ++ token.text ++ "' after type"
  | expected wanted found => "expected '" ++ wanted.text ++ "', found " ++ describe found
  | expectedType found => "expected a type, found " ++ describe found
  | repeatedQuestion => "duplicate '?'"
  | malformedName name => "malformed type name '" ++ String.ofList name ++ "'"

/-- The tokens after one that has to come next. -/
def expect (wanted : Token) : List Token → Except Fault (List Token)
  | [] => .error (.expected wanted none)
  | token :: rest => if token = wanted then .ok rest else .error (.expected wanted (some token))

/-- Whether a name has two points in a row. -/
def hasDoublePoint : List Char → Bool
  | '.' :: '.' :: _ => true
  | _ :: rest => hasDoublePoint rest
  | [] => false

/-- The type that a name alone stands for. -/
def ofName (name : List Char) : Except Fault TypeExpr :=
  if name.getLast? = some '.' ∨ hasDoublePoint name then .error (.malformedName name)
  else
    let text := String.ofList name
    .ok (match Scalar.ofKeyword? text with
      | some kind => scalar kind
      | none => named text)

/-- A part of an expression at the start of a list of tokens, and the tokens after it. -/
abbrev Reader := List Token → Except Fault (TypeExpr × List Token)

/-- A question mark after a type makes it nullable; a second one is a fault. -/
def withQuestion (base : TypeExpr) : Reader
  | .question :: .question :: _ => .error .repeatedQuestion
  | .question :: rest => .ok (nullable base, rest)
  | rest => .ok (base, rest)

/-- An expression without its question mark; `read` reads the expressions inside it. -/
def readBase (read : Reader) : Reader
  | [] => .error (.expectedType none)
  | .name word :: rest =>
    match String.ofList word with
    | "list" => do
      let (items, rest) ← read (← expect .left rest)
      return (list items, ← expect .right rest)
    | "set" => do
      let (items, rest) ← read (← expect .left rest)
      return (set items, ← expect .right rest)
    | "map" => do
      let (key, rest) ← read (← expect .left rest)
      let (value, rest) ← read (← expect .comma rest)
      return (map key value, ← expect .right rest)
    | "any" | "object" => .ok (any, rest)
    | _ => (ofName word).map (·, rest)
  | token :: _ => .error (.expectedType (some token))

/-- An expression at the start of a list of tokens. An expression inside another starts at least
two tokens later, so a fuel beyond the number of tokens is never used up. -/
def readExpr : Nat → Reader
  | 0, _ => .error (.expectedType none)
  | fuel + 1, tokens => do
    let (base, rest) ← readBase (readExpr fuel) tokens
    withQuestion base rest

/-- The expression that a list of tokens consists of. -/
def ofTokens (tokens : List Token) : Except Fault TypeExpr := do
  match ← readExpr (tokens.length + 1) tokens with
  | (expr, []) => .ok expr
  | (_, token :: _) => .error (.trailing token)

/-- The expression that a text consists of. -/
def parse (text : String) : Except Fault TypeExpr :=
  match Token.scan text.toList with
  | .ok tokens => ofTokens tokens
  | .error c => .error (.unexpectedCharacter c)

end SchemaCompiler.TypeExpr
