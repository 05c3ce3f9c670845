import SchemaCompiler.Association
import SchemaCompiler.Json.Number

/-!
# JSON values

Objects keep their members in order. In a value that was read or built by this library no object
has a key twice: members are added with `Association.insert`.
-/

namespace SchemaCompiler

/-- A JSON value. -/
inductive Json where
  | null
  | bool (value : Bool)
  | number (value : Json.Number)
  | string (value : String)
  | array (items : List Json)
  | object (members : List (String × Json))
deriving Inhabited

namespace Json

/-- The value of a key; `none` when it is absent or the value is no object. -/
def get? (key : String) : Json → Option Json
  | object members => members.lookup key
  | _ => none

/-- The text, if the value is one. -/
def asString? : Json → Option String
  | string s => some s
  | _ => none

/-- The members, if the value is an object. -/
def asObject? : Json → Option (List (String × Json))
  | object members => some members
  | _ => none

/-- Whether the value is an object. -/
def isObject : Json → Bool
  | object _ => true
  | _ => false

/-- A nonnegative integer as a value. -/
def ofNat (n : Nat) : Json := number (.int n)

/-- A list of texts as a value. -/
def ofStrings (texts : List String) : Json := array (texts.map string)

end Json

end SchemaCompiler
