import SchemaCompiler.Json.Basic
import SchemaCompiler.Numeric.Decimal
import SchemaCompiler.Yaml.Token.Basic

/-!
# What scalars stand for

A scalar stands for null, a truth value, a number or a text. Quoted scalars are texts. A plain one
is read by its spelling, and a core tag (`!!int` and the like) says how to read either.
-/

namespace SchemaCompiler.Yaml

/-- What a scalar stands for. -/
inductive Scalar where
  | null
  | bool (value : Bool)
  /-- An integer of 64 bits, signed or not. -/
  | int (value : Int)
  /-- An integer of more than 64 and at most 128 bits. -/
  | wide (value : Int)
  | float (value : Binary64)
  | infinite (negative : Bool)
  | notANumber
  | text (value : String)
deriving DecidableEq

namespace Scalar

/-- Whether a plain text is one of the spellings of null. -/
def isNull (s : String) : Bool := ["null", "Null", "NULL", "~"].contains s

/-- The truth value of a spelling. -/
def bool? : String → Option Bool
  | "true" | "True" | "TRUE" => some true
  | "false" | "False" | "FALSE" => some false
  | _ => none

/-- Whether digits begin with a zero that is not alone; such a text is no number. -/
def hasLeadingZero (cs : List Char) : Bool :=
  let digits :=
    match cs with
    | '-' :: rest => rest
    | '+' :: rest => rest
    | rest => rest
  match digits with
  | '0' :: d :: rest => (d :: rest).all Text.isAsciiDigit
  | _ => false

/-- The digits of a number after the mark of its base. -/
def unsigned? (cs : List Char) : Option Nat :=
  let inBase : Option Nat :=
    match cs with
    | '0' :: 'x' :: digits => Text.numeral? 16 digits
    | '0' :: 'o' :: digits => Text.numeral? 8 digits
    | '0' :: 'b' :: digits => Text.numeral? 2 digits
    | _ => none
  inBase <|> if hasLeadingZero cs then none else Text.numeral? 10 cs

/-- The integer of a spelling, of any size. -/
def int? : List Char → Option Int
  | '+' :: cs => (unsigned? cs).map Int.ofNat
  | '-' :: cs => (unsigned? cs).map fun n => -(n : Int)
  | cs => (unsigned? cs).map Int.ofNat

/-- The least integer of 128 bits. -/
def minWide : Int := -0x80000000000000000000000000000000

/-- The greatest integer of 128 bits. -/
def maxWide : Int := 0xFFFFFFFFFFFFFFFFFFFFFFFFFFFFFFFF

/-- The integer of a spelling, if 128 bits hold it. -/
def ofInt? (cs : List Char) : Option Scalar :=
  (int? cs).bind fun n =>
    if Json.Number.minSigned ≤ n ∧ n ≤ Json.Number.maxUnsigned then some (int n)
    else if minWide ≤ n ∧ n ≤ maxWide then some (wide n)
    else none

/-- The float of a spelling; not every word that is a number elsewhere is one here. -/
def ofFloat? (s : String) : Option Scalar :=
  match s with
  | ".inf" | ".Inf" | ".INF" | "+.inf" | "+.Inf" | "+.INF" => some (infinite false)
  | "-.inf" | "-.Inf" | "-.INF" => some (infinite true)
  | ".nan" | ".NaN" | ".NAN" => some notANumber
  | s =>
    match s.toList with
    | '+' :: '+' :: _ => none
    | '+' :: '-' :: _ => none
    | cs => (Binary64.ofText? cs).map float

/-- What a plain text stands for. -/
def ofPlain (s : String) : Scalar :=
  if s.isEmpty || isNull s then null
  else
    match bool? s with
    | some b => bool b
    | none =>
      match ofInt? s.toList with
      | some n => n
      | none => if hasLeadingZero s.toList then text s else (ofFloat? s).getD (text s)

/-- The tag of a local type: an exclamation mark and a name, or the mark alone. -/
def localTag? (tag : Option String) : Option String :=
  match tag with
  | some t =>
    match t.toList with
    | ['!'] => some "!"
    | '!' :: name => some (String.ofList name)
    | _ => none
  | none => none

/-- What a scalar stands for; none where its tag does not fit its text. -/
def resolve? (tag : Option String) (style : Style) (s : String) : Option Scalar :=
  match tag with
  | some "tag:yaml.org,2002:bool" => (bool? s).map bool
  | some "tag:yaml.org,2002:int" => ofInt? s.toList
  | some "tag:yaml.org,2002:float" => ofFloat? s
  | some "tag:yaml.org,2002:null" => if isNull s then some null else none
  | some _ =>
    if style = .plain ∧ (localTag? tag).isSome then some (ofPlain s) else some (text s)
  | none => if style = .plain then some (ofPlain s) else some (text s)

end Scalar

end SchemaCompiler.Yaml
