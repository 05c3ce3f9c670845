import SchemaCompiler.Draft
import SchemaCompiler.Schema.Node

/-!
# The JSON form of a schema node

`Node.render` writes a node as an object: annotations first, then the structure, then assertions,
then the remaining annotations. A nullable node adds null to the type (and to the values of an
enumeration) where the inner node has a plain type, and else offers the inner node or null under
`anyOf`, with the annotations outside.
-/

namespace SchemaCompiler.Node

open Keywords (Member)

/-- The `type` keyword, with null beside the type when null is accepted too. -/
def typeMember (type : String) (orNull : Bool) : Member :=
  ("type", if orNull then .ofStrings [type, "null"] else .string type)

/-- A schema or null: annotations outside, the rest of the schema as the first branch. -/
def orNullMembers (k : Keywords) (structural : Keywords → List Member) : List Member :=
  let inner := k.assertions
  let present : Json := .object (inner.around (structural inner))
  let absent : Json := .object [typeMember "null" false]
  k.annotations.head ++ [("anyOf", .array [present, absent])] ++ k.annotations.tail

/-- A schema with a plain type. A constant would exclude null, so then null is a branch of its
own. -/
def typedMembers (orNull : Bool) (k : Keywords) (structural : Bool → List Member) : List Member :=
  if orNull && k.constant.isSome then orNullMembers k fun _ => structural false
  else k.around (structural orNull)

/-- A schema without a plain type. -/
def untypedMembers (orNull : Bool) (k : Keywords) (structural : Keywords → List Member) :
    List Member :=
  if orNull then orNullMembers k structural else k.around (structural k)

/-- The reference itself. A draft that ignores what stands next to `$ref` gets the reference inside
`allOf` unless it stands alone. -/
def refMembers (draft : Draft) (target : CanonicalId) (k : Keywords) : List Member :=
  if k.isEmpty || draft.refAllowsSiblings then [("$ref", .string target.uri)]
  else [("allOf", .array [.object [("$ref", .string target.uri)]])]

/-- A member holding an array, left out when the array is empty. -/
def arrayMember (key : String) (items : List Json) : List Member :=
  if items.isEmpty then [] else [(key, .array items)]

/-- A member holding an object, left out when the object is empty. -/
def objectMember (key : String) (members : List Member) : List Member :=
  if members.isEmpty then [] else [(key, .object members)]

mutual

/-- The members of a node's object; `orNull` says whether null is accepted too. -/
def members (draft : Draft) (orNull : Bool) : Node → List Member
  | any k => k.around []
  | null k => k.around [typeMember "null" false]
  | scalar primitive k => typedMembers orNull k fun orNull => [typeMember primitive.text orNull]
  | enum values k =>
    typedMembers orNull k fun orNull =>
      [typeMember "string" orNull,
        ("enum", .array (values.map .string ++ if orNull then [.null] else []))]
  | array items k =>
    let items := Json.object (members draft false items)
    typedMembers orNull k fun orNull => [typeMember "array" orNull, ("items", items)]
  | object typed allOf properties required additional k =>
    let parts :=
      arrayMember "allOf" (renderList draft allOf) ++
        objectMember "properties" (renderProperties draft properties) ++
        arrayMember "required" (required.map .string) ++
        renderOption "additionalProperties" draft additional
    if typed then typedMembers orNull k fun orNull => typeMember "object" orNull :: parts
    else untypedMembers orNull k fun _ => parts
  | nullable inner => members draft true inner
  | oneOf variants k =>
    let variants := renderList draft variants
    untypedMembers orNull k fun _ => [("oneOf", .array variants)]
  | nominal _ k => untypedMembers orNull k fun _ => []
  | ref target k => untypedMembers orNull k (refMembers draft target)

/-- Each node of a list as an object. -/
def renderList (draft : Draft) : List Node → List Json
  | [] => []
  | node :: rest => .object (members draft false node) :: renderList draft rest

/-- Each property with its node as an object. -/
def renderProperties (draft : Draft) : List (String × Node) → List Member
  | [] => []
  | (name, node) :: rest =>
    (name, .object (members draft false node)) :: renderProperties draft rest

/-- A member holding a node as an object, if there is one. -/
def renderOption (key : String) (draft : Draft) : Option Node → List Member
  | none => []
  | some node => [(key, .object (members draft false node))]

end

/-- The node as a JSON object. -/
def render (draft : Draft) (node : Node) : Json := .object (node.members draft false)

end SchemaCompiler.Node
