import SchemaCompiler.Definition.Registry
import SchemaCompiler.Schema.Builder

/-!
# Resolution

The definitions of a root: `Resolver.resolve` builds the root and every type that it leads to,
depth first, each at most once, and registers all of them together. A type that is met while it is
being built is only referred to, so cycles end.
-/

namespace SchemaCompiler

/-- What definitions are built from. -/
structure Resolver where
  graph : TypeGraph
  config : Configuration
  base : BaseUri

/-- The state of a walk over the types of a graph. -/
structure Walk where
  registry : Registry
  /-- The types being built, innermost first. -/
  visiting : List CanonicalId := []
  /-- What has been built, in the order of completion. -/
  staged : List Definition := []
  /-- What has been found while building. -/
  findings : List Diagnostic := []

/-- Whether the definition of an identifier is there or being built. -/
def Walk.knows (walk : Walk) (id : CanonicalId) : Bool :=
  walk.visiting.contains id || (walk.staged.any fun d => d.id == id) || walk.registry.contains id

/-- A walk that failed: how far it came, and why. -/
structure Stopped where
  walk : Walk
  failure : Failure

/-- A root and the definitions that it leads to. -/
structure ResolvedRoot where
  definition : Definition
  definitions : List Definition

namespace Resolver

/-- The registry that a walk leaves behind, whether it succeeds or fails. -/
def registryOf : Except Stopped Walk → Registry
  | .ok walk => walk.registry
  | .error stopped => stopped.walk.registry

variable (r : Resolver)

/-- The identifier of a described type. -/
def identifier (t : TypeDescription) : CanonicalId := r.base.identifier t.schemaName

/-- The identifier of a declared type. -/
def identifierOf (name : TypeName) : CanonicalId :=
  r.base.identifier ((r.graph.get? name).map (·.schemaName) |>.getD name.chain)

/-- The definition of a described type. -/
def define (t : TypeDescription) : Definition :=
  let node := (r.config.build t).link r.identifierOf
  { id := r.identifier t
    typeName := t.name
    schemaName := t.schemaName
    node
    references := node.references }

/-- The described type of a name. -/
def described (name : TypeName) : Except Failure TypeDescription :=
  match r.graph.get? name with
  | some t => .ok t
  | none => .error (.unsupported name.qualified "" .notExtracted)

/-- Notes that a type is being built, and what is found in it. -/
def enter (walk : Walk) (t : TypeDescription) : Walk :=
  { walk with
    visiting := r.identifier t :: walk.visiting
    findings := walk.findings ++ r.config.buildFindings t }

/-- Notes that a type is built. -/
def leave (walk : Walk) (t : TypeDescription) : Walk :=
  { walk with
    visiting := walk.visiting.erase (r.identifier t)
    staged := walk.staged ++ [r.define t] }

/-- Builds a type; `visit` builds what it mentions before it is built itself. -/
def expand (visit : Walk → TypeName → Except Stopped Walk) (walk : Walk) (t : TypeDescription) :
    Except Stopped Walk := do
  let walk ← (r.config.build t).mentions.foldlM visit (r.enter walk t)
  return r.leave walk t

/-- The walk once an identifier belongs to a type, or stopped where it belongs to another. -/
def claim (walk : Walk) (t : TypeDescription) : Except Stopped Walk :=
  match walk.registry.claim (r.identifier t) t.name with
  | .ok registry => .ok { walk with registry }
  | .error failure => .error ⟨walk, failure⟩

/-- Builds the type of a name unless its definition is there or being built. The types being built
are distinct, so a depth of as many types as the graph has is never used up. -/
def visit : Nat → Walk → TypeName → Except Stopped Walk
  | depth, walk, name =>
    match r.described name with
    | .error failure => .error ⟨walk, failure⟩
    | .ok t => do
      let walk ← r.claim walk t
      if walk.knows (r.identifier t) then return walk
      else
        match depth with
        | 0 => .error ⟨walk, .unregistered (r.identifier t)⟩
        | depth + 1 => r.expand (visit depth) walk t

/-- The definitions that pending identifiers lead to and that were not seen before, depth first.
Each step reaches another definition, so one step more than there are definitions is never used
up. -/
def reachable (registry : Registry) : Nat → List CanonicalId → List CanonicalId →
    Except Failure (List Definition)
  | 0, _, _ => .ok []
  | steps + 1, seen, pending =>
    match pending.dropWhile seen.contains with
    | [] => .ok []
    | id :: rest =>
      match registry.get? id with
      | none => .error (.unregistered id)
      | some d => do
        return d :: (← reachable registry steps (id :: seen) (d.references ++ rest))

/-- The root of an identifier with the definitions that it leads to. -/
def collect (registry : Registry) (id : CanonicalId) : Except Failure ResolvedRoot :=
  match registry.get? id with
  | none => .error (.unregistered id)
  | some d => do
    return ⟨d, ← reachable registry (registry.definitions.length + 1) [id] d.references⟩

/-- The walk that builds a root. A root is built even if its definition is there. -/
def walkFrom (registry : Registry) (root : TypeName) : Except Stopped Walk :=
  match r.described root with
  | .error failure => .error ⟨{ registry }, failure⟩
  | .ok t => do
    let walk ← r.claim { registry } t
    r.expand (r.visit r.graph.types.length) walk t

/-- The registry after a root, what was found, and the root with its definitions. A root that
fails registers nothing, but the identifiers it has claimed stay claimed. -/
def resolve (registry : Registry) (root : TypeName) :
    Registry × List Diagnostic × Except Failure ResolvedRoot :=
  match r.walkFrom registry root with
  | .error stopped => (stopped.walk.registry, stopped.walk.findings, .error stopped.failure)
  | .ok walk =>
    let registry := walk.registry.registerAll walk.staged
    let id? := (r.described root).map r.identifier
    (registry, walk.findings, id?.bind (collect registry))

end Resolver

end SchemaCompiler
