import SchemaCompiler.Draft
import SchemaCompiler.Json.Basic
import SchemaCompiler.Pattern.Syntax
import SchemaCompiler.Uri.Reference

/-!
# Meta-schemas

Which JSON values are schemas of a draft. Each keyword asks its value to have a form; other keywords
may have any value. The form of a text, such as a regular expression, counts in draft-07 only.
-/

namespace SchemaCompiler.Validation

/-- What a keyword asks of its value. -/
inductive Form where
  | anything
  | boolean
  | number
  | positiveNumber
  /-- An integer that is not negative. -/
  | count
  | text
  | pattern
  | reference
  /-- The identifier of a schema, without a fragment. -/
  | identifier
  /-- The name of a place in a schema. -/
  | anchor
  /-- One of the seven types. -/
  | typeName
  /-- A type, or different types. -/
  | types
  /-- Any list. -/
  | list
  /-- Different texts. -/
  | texts
  /-- Different texts under each key. -/
  | textsByKey
  | booleanByKey
  | schema
  /-- At least one schema. -/
  | schemas
  | schemaOrSchemas
  | schemaByKey
  /-- A schema under each regular expression. -/
  | schemaByPattern
  | schemaOrTexts
  /-- Under each key a schema or texts. -/
  | dependencies
deriving DecidableEq, Repr

/-! ### Keywords -/

/-- The form of a keyword that both drafts have. -/
def sharedForm : String → Option Form
  | "$schema" | "$ref" => some .reference
  | "$comment" | "title" | "description" | "format" | "contentEncoding" | "contentMediaType" =>
    some .text
  | "readOnly" | "writeOnly" | "uniqueItems" => some .boolean
  | "multipleOf" => some .positiveNumber
  | "maximum" | "exclusiveMaximum" | "minimum" | "exclusiveMinimum" => some .number
  | "maxLength" | "minLength" | "maxItems" | "minItems" | "maxProperties" | "minProperties" =>
    some .count
  | "pattern" => some .pattern
  | "enum" | "examples" => some .list
  | "required" => some .texts
  | "type" => some .types
  | "additionalProperties" | "propertyNames" | "contains" | "if" | "then" | "else" | "not" =>
    some .schema
  | "allOf" | "anyOf" | "oneOf" => some .schemas
  | "properties" | "definitions" => some .schemaByKey
  | "patternProperties" => some .schemaByPattern
  | "dependencies" => some .dependencies
  | _ => none

/-- The form of a keyword of one draft alone. -/
def ownForm : Draft → String → Option Form
  | .draft07, "$id" => some .reference
  | .draft07, "items" => some .schemaOrSchemas
  | .draft07, "additionalItems" => some .schema
  | .draft202012, "$id" => some .identifier
  | .draft202012, "$dynamicRef" => some .reference
  | .draft202012, "$recursiveRef" => some .reference
  | .draft202012, "$anchor" => some .anchor
  | .draft202012, "$dynamicAnchor" => some .anchor
  | .draft202012, "$recursiveAnchor" => some .anchor
  | .draft202012, "$vocabulary" => some .booleanByKey
  | .draft202012, "deprecated" => some .boolean
  | .draft202012, "maxContains" => some .count
  | .draft202012, "minContains" => some .count
  | .draft202012, "items" => some .schema
  | .draft202012, "unevaluatedItems" => some .schema
  | .draft202012, "unevaluatedProperties" => some .schema
  | .draft202012, "contentSchema" => some .schema
  | .draft202012, "prefixItems" => some .schemas
  | .draft202012, "$defs" => some .schemaByKey
  | .draft202012, "dependentSchemas" => some .schemaByKey
  | .draft202012, "dependentRequired" => some .textsByKey
  | _, _ => none

/-- The form that a draft asks of the value of a keyword. -/
def keywordForm (draft : Draft) (keyword : String) : Form :=
  (sharedForm keyword <|> ownForm draft keyword).getD .anything

/-! ### Texts and numbers -/

/-- The names of types. -/
def typeNames : List String :=
  ["array", "boolean", "integer", "null", "number", "object", "string"]

/-- Whether a text is an anchor. -/
def isAnchor (s : String) : Bool :=
  match s.toList with
  | [] => false
  | c :: rest =>
    (Text.isAsciiLetter c || c == '_') &&
      rest.all fun c => Text.isAsciiAlphanumeric c || c == '-' || c == '.' || c == '_'

/-- Whether a text has no `#` except at its end. -/
def lacksFragment (s : String) : Bool := !(s.toList.dropLast.contains '#')

/-- Whether a draft checks the forms of texts. -/
def checksTexts : Draft → Bool
  | .draft07 => true
  | .draft202012 => false

/-- Whether a text has a form. -/
def textFits (draft : Draft) (s : String) : Form → Bool
  | .anything | .text => true
  | .pattern => !checksTexts draft || Pattern.isPattern s
  | .reference => !checksTexts draft || Uri.Reference.isReference s
  | .identifier => lacksFragment s
  | .anchor => isAnchor s
  | .typeName | .types => typeNames.contains s
  | _ => false

/-- Whether a number is an integer that is not negative. -/
def isCount : Json.Number → Bool
  | .int n => 0 ≤ n
  | .float x => x.isWhole && (x.isZero || !x.negative)

/-- Whether a number is above zero. -/
def isPositive (n : Json.Number) : Bool := n.compare (.int 0) == .gt

/-- Whether a number has a form. -/
def numberFits (n : Json.Number) : Form → Bool
  | .anything | .number => true
  | .positiveNumber => isPositive n
  | .count => isCount n
  | _ => false

/-! ### Lists and objects -/

/-- The form of the items of a list, if a list can have the form. -/
def Form.items? : Form → Option Form
  | anything | list => some anything
  | types => some typeName
  | texts | schemaOrTexts => some text
  | schemas | schemaOrSchemas => some schema
  | _ => none

/-- Whether the form asks for at least one item. -/
def Form.needsItem : Form → Bool
  | types | schemas | schemaOrSchemas => true
  | _ => false

/-- Whether the form asks for different items. -/
def Form.needsDistinct : Form → Bool
  | types | texts | schemaOrTexts => true
  | _ => false

/-- Whether the number and variety of items is as the form asks. -/
def listFits (items : List Json) (form : Form) : Bool :=
  let texts := items.filterMap Json.asString?
  !(form.needsItem && items.isEmpty) &&
    !(form.needsDistinct && texts.eraseDups.length != texts.length)

/-- The form of the value of each key, if an object can have the form. -/
def Form.members? (draft : Draft) : Form → Option (String → Form)
  | anything => some fun _ => anything
  | schema | schemaOrSchemas | schemaOrTexts => some (keywordForm draft)
  | schemaByKey | schemaByPattern => some fun _ => schema
  | textsByKey => some fun _ => texts
  | booleanByKey => some fun _ => boolean
  | dependencies => some fun _ => schemaOrTexts
  | _ => none

/-- Whether a key fits the form of its object. -/
def keyFits (draft : Draft) (key : String) : Form → Bool
  | .schemaByPattern => textFits draft key .pattern
  | _ => true

/-- Whether a truth value has a form. -/
def booleanFits : Form → Bool
  | .anything | .boolean | .schema | .schemaOrSchemas | .schemaOrTexts => true
  | _ => false

/-! ### Values -/

mutual

/-- Whether a value has a form. -/
def conforms (draft : Draft) (form : Form) : Json → Bool
  | .null => form = .anything
  | .bool _ => booleanFits form
  | .number n => numberFits n form
  | .string s => textFits draft s form
  | .array items =>
    match form.items? with
    | some item => listFits items form && itemsConform draft item items
    | none => false
  | .object members =>
    match form.members? draft with
    | some member => membersConform draft form member members
    | none => false

/-- Whether each item has a form. -/
def itemsConform (draft : Draft) (form : Form) : List Json → Bool
  | [] => true
  | item :: rest => conforms draft form item && itemsConform draft form rest

/-- Whether each key fits and its value has the form that goes with it. -/
def membersConform (draft : Draft) (form : Form) (member : String → Form) :
    List (String × Json) → Bool
  | [] => true
  | (key, value) :: rest =>
    keyFits draft key form && conforms draft (member key) value &&
      membersConform draft form member rest

end

/-- Whether a value is a schema of a draft. -/
def isSchema (draft : Draft) (value : Json) : Bool := conforms draft .schema value

end SchemaCompiler.Validation
