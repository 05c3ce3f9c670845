import SchemaCompiler.Constraint.Basic
import SchemaCompiler.Json.Printer

/-!
# Reading constraints

In a declaration a constraint is a kind alone, or a map with one key, the kind, whose value holds
the parameters. `Constraint.ofEntry` reads either form. A kind that is not known is kept by name,
whatever its parameters.
-/

namespace SchemaCompiler.Constraint

/-- A constraint as it stands in a list: its kind alone, or a map. -/
inductive Entry where
  | bare (kind : String)
  | keyed (members : List (String × Json))

/-- A value as an entry of a constraint list; only texts and objects are. -/
def Entry.ofJson? : Json → Option Entry
  | .string kind => some (bare kind)
  | .object members => some (keyed members)
  | _ => none

/-- What is wrong with the parameters of a constraint. -/
inductive Fault where
  | notOneKey
  | parametersRequired
  | regexpRequired
  | takesNoParameters
  | notAnInteger (found : Json)
  | notADecimal (found : Json)
  | inclusiveNotBoolean (found : Json)
  | notAMap (key : String)
  | notACount (key : String) (found : Json)
  | countRequired (key : String)
  | tooManyDigits (key : String) (count : Nat)
  | notAText (key : String) (found : Json)
  | textExpected (found : Json)

/-- A found value as messages about numbers show it: a text between single quotes. -/
def Fault.display : Json → String
  | .string s => "'" ++ s ++ "'"
  | found => found.compact

/-- The fault in words. -/
def Fault.message : Fault → String
  | notOneKey => "a constraint map must have exactly one key"
  | parametersRequired => "parameters are required"
  | regexpRequired => "a regular expression is required"
  | takesNoParameters => "this constraint takes no parameters"
  | notAnInteger found => "expected an integer, found " ++ Fault.display found
  | notADecimal found => "expected a decimal number, found " ++ Fault.display found
  | inclusiveNotBoolean found => "'inclusive' must be a boolean, found " ++ found.compact
  | notAMap key => "expected a map with '" ++ key ++ "'"
  | notACount key (.number _) => "'" ++ key ++ "' must be a non-negative integer"
  | notACount key found =>
    "'" ++ key ++ "' must be a non-negative integer, found " ++ found.compact
  | countRequired key => "'" ++ key ++ "' is required"
  | tooManyDigits key count =>
    "'" ++ key ++ "' must be at most " ++ toString maxDigits ++ ", found " ++ toString count
  | notAText key found => "'" ++ key ++ "' must be a string, found " ++ found.compact
  | textExpected found => "expected a string, found " ++ found.compact

/-- A constraint that was rejected: the kind it was written under, and why. -/
structure Rejection where
  kind : String
  fault : Fault

/-- The integer that a text consists of, apart from white space around it, if 64 bits hold it. -/
def integerOfText? (s : String) : Option Int :=
  let value? : Option Int :=
    match Text.trimBoth Text.isBlank s.toList with
    | '+' :: ds => (Text.numeral? 10 ds).map Int.ofNat
    | '-' :: ds => (Text.numeral? 10 ds).map fun n => -(n : Int)
    | ds => (Text.numeral? 10 ds).map Int.ofNat
  value?.bind fun n => (Json.Number.int n).signed?

/-- The value among the parameters: that of the key `value` if there is one, else all of them. -/
def valueParameter (parameters : Json) : Json := (parameters.get? "value").getD parameters

/-- An integer written as a number or as a text. -/
def readInteger (found : Json) : Except Fault Int :=
  let value? :=
    match found with
    | .number n => n.signed?
    | .string s => integerOfText? s
    | _ => none
  match value? with
  | some n => .ok n
  | none => .error (.notAnInteger found)

/-- A decimal written as a number or as a text. -/
def readDecimal (found : Json) : Except Fault Json.Number :=
  let value? :=
    match found with
    | .number n => some n
    | .string s => Json.Number.ofText? (Text.trim s)
    | _ => none
  match value? with
  | some n => .ok n
  | none => .error (.notADecimal found)

/-- Whether a decimal bound belongs to the range; it does unless `inclusive` says otherwise. -/
def readInclusive (parameters : Json) : Except Fault Bool :=
  match parameters.get? "inclusive" with
  | none => .ok true
  | some (.bool b) => .ok b
  | some found => .error (.inclusiveNotBoolean found)

/-- A count among the parameters, which have to be a map; absent and null are no count. -/
def readCount? (key : String) (parameters : Json) : Except Fault (Option Nat) :=
  if !parameters.isObject then .error (.notAMap key)
  else
    match parameters.get? key with
    | none | some .null => .ok none
    | some (.number n) =>
      match n.unsigned? with
      | some count => .ok (some count)
      | none => .error (.notACount key (.number n))
    | some found => .error (.notACount key found)

/-- A number of digits, which has to be there and at most `maxDigits`. -/
def readDigitCount (key : String) (parameters : Json) : Except Fault Nat := do
  match ← readCount? key parameters with
  | none => .error (.countRequired key)
  | some count => if count ≤ maxDigits then .ok count else .error (.tooManyDigits key count)

/-- A text: the parameters themselves, or the value of a key. -/
def readText? (key : String) (parameters : Json) : Except Fault (Option String) :=
  match parameters with
  | .string s => .ok (some s)
  | .null => .ok none
  | .object members =>
    match members.lookup key with
    | none | some .null => .ok none
    | some (.string s) => .ok (some s)
    | some found => .error (.notAText key found)
  | found => .error (.textExpected found)

/-- The constraints that take no parameters, and `email`, which need not. -/
def ofKind? : String → Option Constraint
  | "not_blank" => some notBlank
  | "not_empty" => some notEmpty
  | "not_null" => some notNull
  | "null" => some null
  | "positive" => some positive
  | "positive_or_zero" => some positiveOrZero
  | "negative" => some negative
  | "negative_or_zero" => some negativeOrZero
  | "email" => some (email none)
  | "assert_true" => some assertTrue
  | "assert_false" => some assertFalse
  | _ => none

/-- The kinds that cannot stand alone. -/
def needsParameters (kind : String) : Bool :=
  ["size", "min", "max", "decimal_min", "decimal_max", "pattern", "digits"].contains kind

/-- A constraint written as its kind alone. -/
def ofBare (kind : String) : Except Fault Constraint :=
  match ofKind? kind with
  | some constraint => .ok constraint
  | none => if needsParameters kind then .error .parametersRequired else .ok (unknown kind)

/-- Whether parameters say nothing. -/
def isVoid : Json → Bool
  | .null => true
  | .object [] => true
  | _ => false

/-- A constraint written as a kind with parameters. -/
def ofKeyed (kind : String) (parameters : Json) : Except Fault Constraint :=
  match kind with
  | "size" => do
    return size (← readCount? "min" parameters) (← readCount? "max" parameters)
  | "min" => min <$> readInteger (valueParameter parameters)
  | "max" => max <$> readInteger (valueParameter parameters)
  | "decimal_min" => do
    return decimalMin (← readDecimal (valueParameter parameters)) (← readInclusive parameters)
  | "decimal_max" => do
    return decimalMax (← readDecimal (valueParameter parameters)) (← readInclusive parameters)
  | "pattern" => do
    match ← readText? "regexp" parameters with
    | some regexp => return pattern regexp
    | none => .error .regexpRequired
  | "email" => email <$> readText? "regexp" parameters
  | "digits" => do
    return digits (← readDigitCount "integer" parameters) (← readDigitCount "fraction" parameters)
  | kind =>
    match ofKind? kind with
    | none => .ok (unknown kind)
    | some constraint => if isVoid parameters then .ok constraint else .error .takesNoParameters

/-- The constraint of an entry. A map without exactly one key is rejected under all its keys. -/
def ofEntry : Entry → Except Rejection Constraint
  | .bare kind => (ofBare kind).mapError (⟨kind, ·⟩)
  | .keyed [(kind, parameters)] => (ofKeyed kind parameters).mapError (⟨kind, ·⟩)
  | .keyed members => .error ⟨", ".intercalate (members.map (·.1)), .notOneKey⟩

end SchemaCompiler.Constraint
