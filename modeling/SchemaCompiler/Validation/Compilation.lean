import SchemaCompiler.Json.Pointer
import SchemaCompiler.Validation.MetaSchema
import SchemaCompiler.Validation.References

/-!
# Compilation of documents

What a validator needs of a document beyond its form: regular expressions that can be used,
identifiers that are URI references, and references that lead to schemas. Definitions that nothing
refers to need only have such identifiers.
-/

namespace SchemaCompiler.Validation

/-- Something that a schema needs. -/
inductive Need where
  | pattern (text : String)
  /-- A reference, in the document or definition that it is written in. -/
  | reference (resource : Json) (target : String)

/-- Whether a schema is a resource of its own, which references start from. -/
def isResource (members : List (String × Json)) : Bool := members.any (·.1 == "$id")

/-- Whether a reference stands alone, whatever is beside it. -/
def standsAlone (draft : Draft) (members : List (String × Json)) : Bool :=
  !draft.refAllowsSiblings && members.any (·.1 == "$ref")

/-- The form of a keyword that a validator is built from. -/
def compiledForm (draft : Draft) (members : List (String × Json)) (keyword : String) : Form :=
  if keyword = "$defs" ∨ keyword = "definitions" then .anything
  else if standsAlone draft members ∧ keyword ≠ "$ref" then .anything
  else keywordForm draft keyword

/-- Whether values of a form are schemas or hold them. -/
def Form.holdsSchemas : Form → Bool
  | schema | schemas | schemaOrSchemas | schemaByKey | schemaByPattern | schemaOrTexts
  | dependencies => true
  | _ => false

mutual

/-- What a value of a form needs. -/
def needs (draft : Draft) (resource : Json) (keyword : String) (form : Form) : Json → List Need
  | .string s =>
    if form = .pattern then [.pattern s]
    else if keyword = "$ref" then [.reference resource s]
    else []
  | .array items => if form.holdsSchemas then needsOfItems draft resource items else []
  | .object members =>
    match form with
    | .schema | .schemaOrSchemas | .schemaOrTexts =>
      let resource := if isResource members then .object members else resource
      needsOfMembers draft resource false (compiledForm draft members) members
    | .schemaByKey => needsOfMembers draft resource false (fun _ => .schema) members
    | .schemaByPattern => needsOfMembers draft resource true (fun _ => .schema) members
    | .dependencies => needsOfMembers draft resource false (fun _ => .schemaOrTexts) members
    | _ => []
  | .null | .bool _ | .number _ => []

/-- What schemas in a list need. -/
def needsOfItems (draft : Draft) (resource : Json) : List Json → List Need
  | [] => []
  | item :: rest => needs draft resource "" .schema item ++ needsOfItems draft resource rest

/-- What the values of keys need, and the keys themselves where they are expressions. -/
def needsOfMembers (draft : Draft) (resource : Json) (patterns : Bool) (form : String → Form) :
    List (String × Json) → List Need
  | [] => []
  | (key, value) :: rest =>
    (if patterns then [.pattern key] else []) ++ needs draft resource key (form key) value ++
      needsOfMembers draft resource patterns form rest

end

mutual

/-- The identifiers of the schemas in a value of a form. -/
def identifiers (draft : Draft) (form : Form) : Json → List String
  | .array items => if form.holdsSchemas then identifiersOfItems draft items else []
  | .object members =>
    match form with
    | .schema | .schemaOrSchemas | .schemaOrTexts =>
      identifiersOfMembers draft (keywordForm draft) members
    | .schemaByKey | .schemaByPattern => identifiersOfMembers draft (fun _ => .schema) members
    | .dependencies => identifiersOfMembers draft (fun _ => .schemaOrTexts) members
    | _ => []
  | .string s => if form = .identifier then [s] else []
  | .null | .bool _ | .number _ => []

/-- The identifiers of the schemas in a list. -/
def identifiersOfItems (draft : Draft) : List Json → List String
  | [] => []
  | item :: rest => identifiers draft .schema item ++ identifiersOfItems draft rest

/-- The identifiers in the values of keys. -/
def identifiersOfMembers (draft : Draft) (form : String → Form) :
    List (String × Json) → List String
  | [] => []
  | (key, value) :: rest =>
    identifiers draft (if key = "$id" then .identifier else form key) value ++
      identifiersOfMembers draft form rest

end

/-- The schema that a reference leads to, with the resource it stands in. A fragment can lead to a
place that is not meant for schemas; what stands there has to be one. -/
def target? (draft : Draft) (document resource : Json) (target : String) : Option (Json × Json) :=
  match target.toList with
  | '#' :: fragment => do
    let schema ← resource.follow? (← Uri.percentDecode? fragment)
    if isSchema draft schema then some (resource, schema) else none
  | _ => ((embedded draft document).lookup target).map fun schema => (schema, schema)

/-- Whether needs are met, and those of every schema that is referred to. Each step meets a need or
follows a reference not seen before. -/
def meets (draft : Draft) (document : Json) :
    Nat → List (Option String × String) → List Need → Bool
  | 0, _, _ => true
  | _ + 1, _, [] => true
  | steps + 1, seen, .pattern s :: rest =>
    Pattern.compiles s && meets draft document steps seen rest
  | steps + 1, seen, .reference resource target :: rest =>
    let place := (identifier? resource, target)
    if seen.contains place then meets draft document steps seen rest
    else
      match target? draft document resource target with
      | none => false
      | some (resource, schema) =>
        meets draft document steps (place :: seen) (rest ++ needs draft resource "" .schema schema)

mutual

/-- The number of values in a value, itself included. -/
def weight : Json → Nat
  | .array items => 1 + weightOfItems items
  | .object members => 1 + weightOfMembers members
  | .null | .bool _ | .number _ | .string _ => 1

/-- The number of values in a list. -/
def weightOfItems : List Json → Nat
  | [] => 0
  | item :: rest => weight item + weightOfItems rest

/-- The number of values in members, keys included. -/
def weightOfMembers : List (String × Json) → Nat
  | [] => 0
  | (_, value) :: rest => 1 + weight value + weightOfMembers rest

end

/-- Whether a validator can be built from a document. A document of some weight has fewer
references and fewer needs than that. -/
def canCompile (draft : Draft) (document : Json) : Bool :=
  (identifiers draft .schema document).all Uri.Reference.isReference &&
    meets draft document ((weight document + 1) * (weight document + 1)) []
      (needs draft document "" .schema document)

end SchemaCompiler.Validation
