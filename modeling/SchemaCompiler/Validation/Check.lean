import SchemaCompiler.Failure
import SchemaCompiler.Validation.Compilation

/-!
# Self-validation

A document is checked before it is published: it has to be a schema of its draft, each of its
references has to lead somewhere, and a validator can be built from it.
-/

namespace SchemaCompiler.Validation

/-- An identifier without the empty fragment at its end. -/
def withoutEmptyFragment (uri : String) : List Char :=
  (uri.toList.reverse.dropWhile (· == '#')).reverse

/-- The draft whose meta-schema a document names. -/
def declaredDraft (document : Json) : Draft :=
  match (document.get? "$schema").bind Json.asString? with
  | some uri =>
    if withoutEmptyFragment uri = withoutEmptyFragment (Draft.metaSchema .draft07) then .draft07
    else .draft202012
  | none => .draft202012

/-- What is wrong with a document of a draft, if anything is. -/
def invalidity? (draft : Draft) (document : Json) : Option Invalidity :=
  if !isSchema (declaredDraft document) document then some .metaSchema
  else
    match least? (dangling draft document) with
    | some target => some (.danglingReference target)
    | none => if canCompile draft document then none else some .uncompilable

/-- Fails unless a document is a schema. -/
def check (schemaName : String) (document : Json) (draft : Draft) : Except Failure Unit :=
  match invalidity? draft document with
  | none => .ok ()
  | some invalidity => .error (.selfValidation schemaName invalidity)

end SchemaCompiler.Validation
