import SchemaCompiler.Declaration.Basic
import SchemaCompiler.Failure
import SchemaCompiler.Yaml.Tree

/-!
# Reading declarations

`DeclarationFile.parse` reads a declaration file from YAML text. The first fault in the order of
the text is reported, at its path; a field that is missing is noticed at the end of its mapping.
A text that stands for no data at all is malformed, whatever else is wrong with it.
-/

namespace SchemaCompiler

namespace Declaration

open Yaml (Tree)

/-- The outcome of reading a part of a declaration file. -/
abbrev Reading := Except Fault

/-- Fails where the reader stands. -/
def fail {α : Type} (problem : Problem) : Reading α := .error { problem := problem }

/-- A reading one step further in. -/
def within {α : Type} (step : Step) (reading : Reading α) : Reading α :=
  reading.mapError (·.within step)

/-- What a scalar stands for, and its text where the tag does not fit it. -/
def resolved (tag : Option String) (style : Yaml.Style) (s : String) : Yaml.Scalar :=
  (Yaml.Scalar.resolve? tag style s).getD (.text s)

/-- A tree as messages name it. -/
def foundIn : Tree → Found
  | .scalar tag style s => .scalar (resolved tag style s)
  | .sequence _ _ => .sequence
  | .mapping _ _ => .mapping

/-- Fails because something else was expected. -/
def mismatch {α : Type} (tree : Tree) (expected : String) : Reading α :=
  fail (.invalidType (foundIn tree) expected)

/-- Whether a tree is a plain scalar without text. -/
def isVoid : Tree → Bool
  | .scalar _ style s => style = .plain && s.isEmpty
  | _ => false

/-! ### Single values -/

/-- The text of any scalar. -/
def text : Tree → Reading String
  | .scalar _ _ s => .ok s
  | tree => mismatch tree "a string"

/-- A truth value. -/
def boolean (tree : Tree) : Reading Bool :=
  let value? :=
    match tree with
    | .scalar tag style s =>
      if style = .plain ∨ style = .literal ∧ tag = some "tag:yaml.org,2002:bool" then
        Yaml.Scalar.bool? s
      else none
    | _ => none
  match value? with
  | some b => .ok b
  | none => mismatch tree "a boolean"

/-- A value that is absent where a plain null or nothing is written. -/
def optional {α : Type} (read : Tree → Reading α) (tree : Tree) : Reading (Option α) :=
  match tree with
  | .scalar none .plain s =>
    if s.isEmpty || Yaml.Scalar.isNull s then .ok none else some <$> read tree
  | .scalar (some "tag:yaml.org,2002:null") .plain s =>
    if Yaml.Scalar.isNull s then .ok none else fail (.notNull s)
  | tree => some <$> read tree

/-- The items of a list; nothing is the empty list. -/
def items (tree : Tree) : Reading (List Tree) :=
  match tree with
  | .sequence _ items => .ok items
  | tree => if isVoid tree then .ok [] else mismatch tree "a sequence"

/-- A list read item by item, each at its index. -/
def readItems {α : Type} (read : Tree → Reading α) : Nat → List Tree → Reading (List α)
  | _, [] => .ok []
  | index, tree :: rest => do
    let value ← within (.item index) (read tree)
    return value :: (← readItems read (index + 1) rest)

/-- A list of values. -/
def list {α : Type} (read : Tree → Reading α) (tree : Tree) : Reading (List α) := do
  readItems read 0 (← items tree)

/-- The value of a field. -/
def field {α : Type} (name : String) (read : Tree → Reading α) (tree : Tree) : Reading α :=
  within (.field name) (read tree)

/-! ### Words and types

A bad word under a tag and a bad type are faults of the mapping that the field stands in. -/

/-- The value of a word. -/
def ofWord {α : Type} [Worded α] (word : String) : Reading α :=
  match Worded.ofWord? word with
  | some value => .ok value
  | none => fail (.unknownWord word (Worded.words α))

/-- What stands under a tag that is a word: nothing. -/
def nothing : Tree → Reading Unit
  | .scalar _ style s =>
    if style = .plain ∧ (s.isEmpty ∨ Yaml.Scalar.isNull s) then .ok () else fail (.notNull s)
  | tree => mismatch tree "unit"

/-- The local tag of a tree. -/
def localTag? : Tree → Option String
  | .scalar tag _ _ => Yaml.Scalar.localTag? tag
  | .sequence tag _ => Yaml.Scalar.localTag? tag
  | .mapping tag _ => Yaml.Scalar.localTag? tag

/-- A choice by word: the text of the scalar, or its local tag. -/
def choice {α : Type} [Worded α] (name : String) (tree : Tree) : Reading α :=
  match localTag? tree with
  | some word => do
    let value ← ofWord word
    within (.field name) (nothing tree)
    return value
  | none =>
    within (.field name)
      (match tree with
      | .scalar _ _ s => ofWord s
      | tree => mismatch tree "a YAML tag starting with '!'")

/-- A choice that need not be made. -/
def optionalChoice {α : Type} [Worded α] (name : String) (tree : Tree) : Reading (Option α) :=
  optional (choice name) tree

/-- A type expression. -/
def typeExpr (name : String) (tree : Tree) : Reading TypeExpr := do
  let source ← within (.field name) (text tree)
  match TypeExpr.parse source with
  | .ok expr => .ok expr
  | .error fault => fail (.typeExpression source fault)

/-! ### Data -/

/-- A scalar as data; a float that is not finite is null, and an integer has at most 64 bits. -/
def scalarJson? : Yaml.Scalar → Option Json
  | .null => some .null
  | .bool b => some (.bool b)
  | .int n => some (.number (.int n))
  | .wide _ => none
  | .float x => some (.number (.float x))
  | .infinite _ => some .null
  | .notANumber => some .null
  | .text s => some (.string s)

mutual

/-- A value of any type. Keys count by their texts. -/
def json : Tree → Reading Json
  | .scalar tag style s =>
    if (Yaml.Scalar.localTag? tag).isSome then
      fail (.invalidType .tagged "any valid JSON value")
    else
      match scalarJson? (resolved tag style s) with
      | some value => .ok value
      | none => fail (.invalidType (.scalar (resolved tag style s)) "any valid JSON value")
  | .sequence tag items =>
    if (Yaml.Scalar.localTag? tag).isSome then
      fail (.invalidType .tagged "any valid JSON value")
    else return .array (← jsonItems 0 items)
  | .mapping tag pairs =>
    if (Yaml.Scalar.localTag? tag).isSome then
      fail (.invalidType .tagged "any valid JSON value")
    else return .object (Association.ofPairs (← jsonMembers pairs))

/-- The values of a list, each at its index. -/
def jsonItems (index : Nat) : List Tree → Reading (List Json)
  | [] => .ok []
  | tree :: rest => do
    let value ← within (.item index) (json tree)
    return value :: (← jsonItems (index + 1) rest)

/-- The members of a mapping. -/
def jsonMembers : List (Tree × Tree) → Reading (List (String × Json))
  | [] => .ok []
  | (.scalar _ _ key, tree) :: rest => do
    let value ← within (.field key) (json tree)
    return (key, value) :: (← jsonMembers rest)
  | (key, _) :: _ => mismatch key "a string key"

end

/-! ### Constraints -/

/-- The step to a value in a mapping. -/
def valueStep : Tree → Step
  | .scalar _ _ key => .field key
  | _ => .field "?"

mutual

/-- No value of a local type may stand in a constraint. -/
def untagged : Tree → Reading Unit
  | .scalar tag _ _ =>
    if (Yaml.Scalar.localTag? tag).isSome then fail .constraintTagged else .ok ()
  | .sequence tag items =>
    if (Yaml.Scalar.localTag? tag).isSome then fail .constraintTagged else untaggedItems 0 items
  | .mapping tag pairs =>
    if (Yaml.Scalar.localTag? tag).isSome then fail .constraintTagged else untaggedPairs pairs

/-- No value of a local type may stand in a list of a constraint. -/
def untaggedItems (index : Nat) : List Tree → Reading Unit
  | [] => .ok ()
  | tree :: rest => do
    within (.item index) (untagged tree)
    untaggedItems (index + 1) rest

/-- No value of a local type may stand in a mapping of a constraint. -/
def untaggedPairs : List (Tree × Tree) → Reading Unit
  | [] => .ok ()
  | (key, tree) :: rest => do
    untagged key
    within (valueStep key) (untagged tree)
    untaggedPairs rest

end

/-- The text that a tree stands for, if it is one. -/
def textValue? : Tree → Option String
  | .scalar tag style s =>
    match resolved tag style s with
    | .text s => some s
    | _ => none
  | _ => none

mutual

/-- Parameters of a constraint; every key has to be a text. -/
def parameters? : Tree → Option Json
  | .scalar tag style s => scalarJson? (resolved tag style s)
  | .sequence _ items => (parameterItems? items).map .array
  | .mapping _ pairs =>
    (parameterMembers? pairs).map fun members => .object (Association.ofPairs members)

/-- The items of a list among the parameters. -/
def parameterItems? : List Tree → Option (List Json)
  | [] => some []
  | tree :: rest =>
    match parameters? tree, parameterItems? rest with
    | some value, some values => some (value :: values)
    | _, _ => none

/-- The members of a mapping among the parameters. -/
def parameterMembers? : List (Tree × Tree) → Option (List (String × Json))
  | [] => some []
  | (key, tree) :: rest =>
    match textValue? key, parameters? tree, parameterMembers? rest with
    | some key, some value, some members => some ((key, value) :: members)
    | _, _, _ => none

end

/-- The entry of a constraint list: a text or a mapping from texts. -/
def entry? (tree : Tree) : Option Constraint.Entry :=
  match textValue? tree with
  | some kind => some (.bare kind)
  | none =>
    match parameters? tree with
    | some (.object members) => some (.keyed members)
    | _ => none

/-- The constraints of a list. A bad one is a fault of the list; a local type is one of its own
place. -/
def constraintsFrom : Nat → List Tree → Reading (List Constraint)
  | _, [] => .ok []
  | index, tree :: rest => do
    within (.item index) (untagged tree)
    match entry? tree with
    | none => fail .constraintForm
    | some entry =>
      match Constraint.ofEntry entry with
      | .error rejection => fail (.constraint rejection)
      | .ok constraint => return constraint :: (← constraintsFrom (index + 1) rest)

/-- A list of constraints. -/
def constraints (tree : Tree) : Reading (List Constraint) := do constraintsFrom 0 (← items tree)

/-! ### Records -/

/-- The fields of a record; nothing is a record without fields. -/
def fields (record : String) (tree : Tree) : Reading (List (Tree × Tree)) :=
  match tree with
  | .mapping _ pairs => .ok pairs
  | tree => if isVoid tree then .ok [] else mismatch tree ("struct " ++ record)

/-- The name of a field. -/
def fieldName : Tree → Reading String
  | .scalar _ _ name => .ok name
  | tree => mismatch tree "field identifier"

/-- Whether a field is written. -/
def hasField (name : String) (pairs : List (Tree × Tree)) : Bool :=
  pairs.any fun
    | (.scalar _ _ key, _) => key == name
    | _ => false

/-- Fails for the first field that has to be written and is not. -/
def require (names : List String) (pairs : List (Tree × Tree)) : Reading Unit :=
  match names.find? fun name => !hasField name pairs with
  | some name => fail (.missingField name)
  | none => .ok ()

/-- The name of a field that is not among those written before. -/
def newFieldName (seen : List String) (key : Tree) : Reading String := do
  let name ← fieldName key
  if seen.contains name then fail (.repeatedField name) else return name

/-- Reads fields in order into a record, after those whose names were seen. -/
def readFields {α : Type} (set : α → String → Tree → Reading α) :
    List String → α → List (Tree × Tree) → Reading α
  | _, record, [] => .ok record
  | seen, record, (key, tree) :: rest => do
    let name ← newFieldName seen key
    readFields set (name :: seen) (← set record name tree) rest

/-- A record that is filled field by field. -/
def readRecord {α : Type} (name : String) (start : α) (set : α → String → Tree → Reading α)
    (required : List String) (tree : Tree) : Reading α := do
  let pairs ← fields name tree
  let record ← readFields set [] start pairs
  require required pairs
  return record

/-- Sets a field of a configuration. -/
def setConfiguration (c : ConfigurationDeclaration) (name : String) (tree : Tree) :
    Reading ConfigurationDeclaration :=
  match name with
  | "base_uri" => return { c with baseUri := ← field name (optional text) tree }
  | "output_location" => return { c with outputLocation := ← field name (optional text) tree }
  | "title" => return { c with title := ← optionalChoice name tree }
  | "description" => return { c with description := ← optionalChoice name tree }
  | "null_inclusion" => return { c with nullInclusion := ← optionalChoice name tree }
  | "binary_as_array" => return { c with binaryAsArray := ← field name (optional boolean) tree }
  | "draft" => return { c with draft := ← optionalChoice name tree }
  | "allow_any" => return { c with allowAny := ← field name (optional boolean) tree }
  | "strict_mode" => return { c with strictMode := ← field name (optional boolean) tree }
  | name =>
    fail (.unknownField name ["base_uri", "output_location", "title", "description",
      "null_inclusion", "binary_as_array", "draft", "allow_any", "strict_mode"])

/-- Sets a field of the mark of a root. -/
def setAnnotation (a : SchemaAnnotation) (name : String) (tree : Tree) :
    Reading SchemaAnnotation :=
  match name with
  | "title" => return { a with title := ← field name (optional text) tree }
  | "description" => return { a with description := ← field name (optional text) tree }
  | "name" => return { a with name := ← field name (optional text) tree }
  | name => fail (.unknownField name ["title", "description", "name"])

/-- Sets a field of a property. -/
def setProperty (p : PropertyDeclaration) (name : String) (tree : Tree) :
    Reading PropertyDeclaration :=
  match name with
  | "name" => return { p with name := ← field name text tree }
  | "type" => return { p with type := ← typeExpr name tree }
  | "rename" => return { p with rename := ← field name (optional text) tree }
  | "ignore" => return { p with ignore := ← field name boolean tree }
  | "unwrapped" => return { p with unwrapped := ← field name boolean tree }
  | "include" => return { p with inclusion := ← choice name tree }
  | "description" => return { p with description := ← field name (optional text) tree }
  | "constraints" => return { p with constraints := ← field name constraints tree }
  | "item_constraints" => return { p with itemConstraints := ← field name constraints tree }
  | "deprecated" => return { p with deprecated := ← field name boolean tree }
  | "read_only" => return { p with readOnly := ← field name boolean tree }
  | "write_only" => return { p with writeOnly := ← field name boolean tree }
  | "default" => return { p with defaultValue := ← field name (optional json) tree }
  | name =>
    fail (.unknownField name ["name", "type", "rename", "ignore", "unwrapped", "include",
      "description", "constraints", "item_constraints", "deprecated", "read_only", "write_only",
      "default"])

/-- Sets a field of a variant. -/
def setVariant (v : VariantDeclaration) (name : String) (tree : Tree) :
    Reading VariantDeclaration :=
  match name with
  | "type" => return { v with target := ← field name text tree }
  | "tag" => return { v with tag := ← field name (optional text) tree }
  | name => fail (.unknownField name ["type", "tag"])

/-- Sets a field of a type, other than its nested types. -/
def setType (t : TypeDeclaration) (name : String) (tree : Tree) : Reading TypeDeclaration :=
  match name with
  | "name" => return { t with name := ← field name text tree }
  | "kind" => return { t with kind := ← choice name tree }
  | "schema" =>
    return { t with
      schema := ← field name (optional (readRecord "SchemaAnnotation" {} setAnnotation [])) tree }
  | "description" => return { t with description := ← field name (optional text) tree }
  | "properties" =>
    return { t with
      properties :=
        ← field name (list (readRecord "PropertyDeclaration" {} setProperty ["name", "type"]))
          tree }
  | "values" => return { t with values := ← field name (list text) tree }
  | "discriminator" => return { t with discriminator := ← field name (optional text) tree }
  | "variants" =>
    return { t with
      variants :=
        ← field name (list (readRecord "VariantDeclaration" {} setVariant ["type"])) tree }
  | "ignore_properties" => return { t with ignoreProperties := ← field name (list text) tree }
  | "include_properties" =>
    return { t with includeProperties := ← field name (optional (list text)) tree }
  | "additional_properties" =>
    return { t with additionalProperties := ← optional (typeExpr name) tree }
  | name =>
    fail (.unknownField name ["name", "kind", "schema", "description", "properties", "values",
      "discriminator", "variants", "nested", "ignore_properties", "include_properties",
      "additional_properties"])

mutual

/-- A type with all types nested in it. -/
def typeDeclaration : Tree → Reading TypeDeclaration
  | .mapping _ pairs => do
    let t ← typeFields [] {} pairs
    require ["name"] pairs
    return t
  | tree => do
    require ["name"] (← fields "TypeDeclaration" tree)
    return {}

/-- The fields of a type, after those whose names were seen. -/
def typeFields (seen : List String) (t : TypeDeclaration) :
    List (Tree × Tree) → Reading TypeDeclaration
  | [] => .ok t
  | (key, tree) :: rest => do
    match ← newFieldName seen key with
    | "nested" =>
      let nested ← within (.field "nested") (typeDeclarations tree)
      typeFields ("nested" :: seen) { t with nested := nested } rest
    | name => typeFields (name :: seen) (← setType t name tree) rest

/-- A list of types. -/
def typeDeclarations : Tree → Reading (List TypeDeclaration)
  | .sequence _ items => typeItems 0 items
  | tree => do
    let _ ← items tree
    return []

/-- The types of a list, each at its index. -/
def typeItems (index : Nat) : List Tree → Reading (List TypeDeclaration)
  | [] => .ok []
  | tree :: rest => do
    let t ← within (.item index) (typeDeclaration tree)
    return t :: (← typeItems (index + 1) rest)

end

/-- Sets a field of a file. -/
def setFile (f : DeclarationFile) (name : String) (tree : Tree) : Reading DeclarationFile :=
  match name with
  | "package" => return { f with package := ← field name (optional text) tree }
  | "configuration" =>
    return { f with
      configuration :=
        ← field name
          (optional (readRecord "ConfigurationDeclaration" {} setConfiguration [])) tree }
  | "types" => return { f with types := ← field name typeDeclarations tree }
  | name => fail (.unknownField name ["package", "configuration", "types"])

end Declaration

open Declaration in
/-- The file that a text declares. -/
def DeclarationFile.parse (source : String) : Except ParseFault DeclarationFile :=
  match (Yaml.Document.ofText? source).bind Yaml.Tree.ofDocument? with
  | none => .error .malformed
  | some none => .ok {}
  | some (some tree) =>
    (readRecord "DeclarationFile" {} setFile [] tree).mapError fun fault =>
      if tree.datum?.isSome then .rejected fault else .malformed

end SchemaCompiler
