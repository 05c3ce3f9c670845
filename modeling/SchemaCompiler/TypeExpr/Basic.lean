import SchemaCompiler.TypeExpr.Scalar

/-!
# Type expressions

The types that declarations write for properties: scalars, names of declared types, lists, sets,
maps, and any of these or null. `TypeExpr.text` is the canonical spelling.
-/

namespace SchemaCompiler

/-- A type as a declaration writes it, names not yet looked up. -/
inductive TypeExpr where
  | scalar (kind : Scalar)
  /-- Any value. -/
  | any
  /-- A declared type, as written. -/
  | named (name : String)
  | list (items : TypeExpr)
  | set (items : TypeExpr)
  | map (key value : TypeExpr)
  | nullable (inner : TypeExpr)
deriving DecidableEq, Repr

namespace TypeExpr

/-- The canonical spelling. -/
def text : TypeExpr → String
  | scalar kind => kind.keyword
  | any => "any"
  | named name => name
  | list items => "list<" ++ items.text ++ ">"
  | set items => "set<" ++ items.text ++ ">"
  | map key value => "map<" ++ key.text ++ ", " ++ value.text ++ ">"
  | nullable inner => inner.text ++ "?"

end TypeExpr

end SchemaCompiler
