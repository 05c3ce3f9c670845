import SchemaCompiler.Failure
import SchemaCompiler.Schema.Node

/-!
# The registry of definitions

The schemas of declared types that the documents of a run share, in the order in which they were
registered. An identifier belongs to the first type that claims it, and its first definition stays.
-/

namespace SchemaCompiler

/-- The schema of a declared type, its placeholders replaced by references. -/
structure Definition where
  id : CanonicalId
  typeName : TypeName
  schemaName : String
  node : Node
  /-- The identifiers that the schema refers to, each once. -/
  references : List CanonicalId

/-- The definitions of a run, and which type each identifier belongs to. -/
structure Registry where
  definitions : List Definition := []
  claims : List (CanonicalId × TypeName) := []

namespace Registry

/-- The type that an identifier belongs to. -/
def owner? (registry : Registry) (id : CanonicalId) : Option TypeName := registry.claims.lookup id

/-- The definition of an identifier. -/
def get? (registry : Registry) (id : CanonicalId) : Option Definition :=
  registry.definitions.find? fun d => d.id == id

/-- Whether an identifier has a definition. -/
def contains (registry : Registry) (id : CanonicalId) : Bool :=
  registry.definitions.any fun d => d.id == id

/-- The identifiers of the definitions, in order. -/
def ids (registry : Registry) : List CanonicalId := registry.definitions.map (·.id)

/-- Gives an identifier to a type, unless it belongs to another. -/
def claim (registry : Registry) (id : CanonicalId) (name : TypeName) : Except Failure Registry :=
  match registry.owner? id with
  | some owner => if owner = name then .ok registry else .error (.collision id owner name)
  | none => .ok { registry with claims := registry.claims ++ [(id, name)] }

/-- Adds a definition unless its identifier has one. -/
def register (registry : Registry) (d : Definition) : Registry :=
  if registry.contains d.id then registry
  else { registry with definitions := registry.definitions ++ [d] }

/-- Adds definitions one after another. -/
def registerAll (registry : Registry) (batch : List Definition) : Registry :=
  batch.foldl register registry

/-- The definition that stands for one which was registered. -/
def committed (registry : Registry) (d : Definition) : Definition := (registry.get? d.id).getD d

/-- Registers a definition and gives the one that stands for it: the definition that its identifier
had before, or else itself. -/
def commit (registry : Registry) (d : Definition) : Registry × Definition :=
  match registry.get? d.id with
  | some existing => (registry, existing)
  | none => ({ registry with definitions := registry.definitions ++ [d] }, d)

/-- Registers definitions one after another and gives those that stand for them. -/
def commitAll : Registry → List Definition → Registry × List Definition
  | registry, [] => (registry, [])
  | registry, d :: batch =>
    let (registry, first) := registry.commit d
    let (registry, rest) := commitAll registry batch
    (registry, first :: rest)

end Registry

end SchemaCompiler
