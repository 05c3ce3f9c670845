/-!
# Names of declared types

A declared type is named by its package and by the chain of types it is nested in. Names written
inside a type are looked up in the scopes of that type, innermost first.
-/

namespace SchemaCompiler

/-- The name of a declared type: its package, empty for the default one, and the chain of
enclosing types that ends in the type itself. -/
structure TypeName where
  package : String
  nesting : List String
deriving DecidableEq, Repr

namespace TypeName

/-- A type at the top level of a package. -/
def topLevel (package name : String) : TypeName := ⟨package, [name]⟩

/-- A type declared inside this one. -/
def nested (t : TypeName) (name : String) : TypeName := ⟨t.package, t.nesting ++ [name]⟩

/-- A chain of names inside a package; the default package is not written. -/
def inPackage (package chain : String) : String :=
  if package.isEmpty then chain else package ++ "." ++ chain

/-- The name of the type itself. -/
def simple (t : TypeName) : String := t.nesting.getLastD ""

/-- The enclosing types and the type itself, joined by points. -/
def chain (t : TypeName) : String := ".".intercalate t.nesting

/-- The full name, package included. -/
def qualified (t : TypeName) : String := inPackage t.package t.chain

/-- The first types of the chain, from the whole chain down to the outermost type alone. -/
def enclosing (t : TypeName) : List (List String) :=
  (List.range t.nesting.length).reverse.map fun k => t.nesting.take (k + 1)

/-- Where a name written inside the type is looked up: in the type, in each type around it, and in
the package unless it is the default one. -/
def scopes (t : TypeName) : List String :=
  t.enclosing.map (fun names => inPackage t.package (".".intercalate names)) ++
    (if t.package.isEmpty then [] else [t.package])

end TypeName

end SchemaCompiler
