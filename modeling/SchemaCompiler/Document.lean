import SchemaCompiler.Definition.Resolution
import SchemaCompiler.Json.Printer
import SchemaCompiler.Schema.Render
import SchemaCompiler.Validation.Check

/-!
# Documents

The document of a root: its schema with an identifier, and the definitions that it leads to embedded
with theirs, so that every reference is resolved inside the document.
-/

namespace SchemaCompiler

/-- The schema document of a root. -/
structure Document where
  schemaName : String
  id : CanonicalId
  draft : Draft
  root : Node
  /-- The definitions that the root leads to, without the root. -/
  definitions : List Definition

namespace Document

/-- The document of a resolved root. -/
def ofRoot (draft : Draft) (root : ResolvedRoot) : Document where
  schemaName := root.definition.schemaName
  id := root.definition.id
  draft := draft
  root := root.definition.node
  definitions := root.definitions

/-- The file that the document is published in. -/
def fileName (d : Document) : String := SchemaName.fileName d.schemaName

/-- A definition as it is embedded, its identifier first. -/
def embed (draft : Draft) (definition : Definition) : String × Json :=
  (definition.schemaName,
    .object
      (Association.insertAll [("$id", .string definition.id.uri)]
        (definition.node.members draft false)))

/-- The document as a JSON value. -/
def toJson (d : Document) : Json :=
  let root :=
    Association.insertAll
      [("$schema", .string d.draft.metaSchema), ("$id", .string d.id.uri)]
      (d.root.members d.draft false)
  .object
    (if d.definitions.isEmpty then root
    else
      Association.insert d.draft.definitionsKeyword
        (.object (Association.ofPairs (d.definitions.map (embed d.draft)))) root)

/-- The document as text: indented lines, the last one ended. -/
def render (d : Document) : String := d.toJson.pretty ++ "\n"

/-- Fails unless the document is a schema. -/
def check (d : Document) : Except Failure Unit :=
  Validation.check d.schemaName d.toJson d.draft

end Document

end SchemaCompiler
