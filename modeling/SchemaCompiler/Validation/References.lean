import SchemaCompiler.Draft
import SchemaCompiler.Json.Basic

/-!
# References in documents

The texts under `$ref` anywhere in a document, in schemas and in data alike, and those of them that
lead nowhere: neither into the document nor to a schema embedded in it.
-/

namespace SchemaCompiler

mutual

/-- The texts under `$ref`, wherever they stand. -/
def Json.references : Json → List String
  | .array items => referencesOfItems items
  | .object members => referencesOfMembers members
  | .null | .bool _ | .number _ | .string _ => []

/-- The texts under `$ref` in the items of a list. -/
def Json.referencesOfItems : List Json → List String
  | [] => []
  | item :: rest => item.references ++ referencesOfItems rest

/-- The texts under `$ref` in members; nothing is looked for inside the value of `$ref`. -/
def Json.referencesOfMembers : List (String × Json) → List String
  | [] => []
  | (key, value) :: rest =>
    (if key = "$ref" then value.asString?.toList else value.references) ++
      referencesOfMembers rest

end

namespace Validation

/-- The identifier of a schema. -/
def identifier? (schema : Json) : Option String := (schema.get? "$id").bind Json.asString?

/-- The document and its definitions, as far as they have identifiers. -/
def embedded (draft : Draft) (document : Json) : List (String × Json) :=
  let definitions := ((document.get? draft.definitionsKeyword).bind Json.asObject?).getD []
  (document :: definitions.map (·.2)).filterMap fun schema =>
    (identifier? schema).map fun id => (id, schema)

/-- The references that lead nowhere. -/
def dangling (draft : Draft) (document : Json) : List String :=
  let known := (embedded draft document).map (·.1)
  document.references.filter fun target =>
    target.toList.head? != some '#' && !known.contains target

/-- The least of some texts. -/
def least? : List String → Option String
  | [] => none
  | s :: rest =>
    match least? rest with
    | some t => some (if s ≤ t then s else t)
    | none => some s

end Validation

end SchemaCompiler
