import SchemaCompiler.Definition.Resolution
import SchemaCompiler.Process

/-!
# Sessions

The resolution of a root while other roots are resolved with the same registry. `Resolver.session`
goes through the types as `Resolver.resolve` does, but it is a process: each claim, each look at a
definition and the registration of what was built is one step, and other sessions may take steps in
between. The registry of its walk is the one that it has seen last.
-/

namespace SchemaCompiler.Resolver

variable (r : Resolver)

/-- Claims the identifier of a type in the registry as it stands. -/
def claimShared (walk : Walk) (t : TypeDescription) : ExceptT Stopped (Process Registry) Walk :=
  ExceptT.mk (.atomic fun registry =>
    let claimed := r.claim { walk with registry } t
    (registryOf claimed, claimed))

/-- The walk with the registry as it stands. It does not look there for an identifier that it knows
itself. -/
def look (walk : Walk) (id : CanonicalId) : Process Registry Walk :=
  if walk.visiting.contains id || walk.staged.any fun d => d.id == id then pure walk
  else .read fun registry => { walk with registry }

/-- Builds the type of a name unless its definition is there or being built. -/
def visitShared : Nat → Walk → TypeName → ExceptT Stopped (Process Registry) Walk
  | depth, walk, name =>
    match r.described name with
    | .error failure => throw ⟨walk, failure⟩
    | .ok t => do
      let walk ← r.claimShared walk t
      let walk ← look walk (r.identifier t)
      if walk.knows (r.identifier t) then return walk
      else
        match depth with
        | 0 => throw ⟨walk, .unregistered (r.identifier t)⟩
        | depth + 1 => do
          let walk ← (r.config.build t).mentions.foldlM (visitShared depth) (r.enter walk t)
          return r.leave walk t

/-- The walk that builds a root. A root is built even if its definition is there. -/
def walkFromShared (root : TypeName) : ExceptT Stopped (Process Registry) Walk :=
  match r.described root with
  | .error failure => throw ⟨{ registry := {} }, failure⟩
  | .ok t => do
    let walk ← r.claimShared { registry := {} } t
    let walk ← (r.config.build t).mentions.foldlM (r.visitShared r.graph.types.length)
      (r.enter walk t)
    return r.leave walk t

/-- The definition of an identifier as the registry stands. -/
def lookUp (id : CanonicalId) : Process Registry (Option Definition) := .read (·.get? id)

/-- The registry as it stands. -/
def current : Process Registry Registry := .read id

/-- The definitions that pending identifiers lead to and that were not seen before, depth first. -/
def reachableShared : Nat → List CanonicalId → List CanonicalId →
    ExceptT Failure (Process Registry) (List Definition)
  | 0, _, _ => return []
  | steps + 1, seen, pending =>
    match pending.dropWhile seen.contains with
    | [] => return []
    | id :: rest => do
      match ← lookUp id with
      | none => throw (.unregistered id)
      | some d => return d :: (← reachableShared steps (id :: seen) (d.references ++ rest))

/-- The root of an identifier with the definitions that it leads to. What a definition refers to is
registered with it or before it, so no more steps are taken than there are definitions when the root
is read. -/
def collectShared (id : CanonicalId) : ExceptT Failure (Process Registry) ResolvedRoot := do
  let registry ← current
  match registry.get? id with
  | none => throw (.unregistered id)
  | some d => return ⟨d, ← reachableShared (registry.definitions.length + 1) [id] d.references⟩

/-- What was found in a root, and the root with its definitions. -/
def session (root : TypeName) :
    Process Registry (List Diagnostic × Except Failure ResolvedRoot) := do
  match ← (r.walkFromShared root).run with
  | .error stopped => return (stopped.walk.findings, .error stopped.failure)
  | .ok walk =>
    Process.atomic fun registry => (registry.registerAll walk.staged, ())
    match (r.described root).map r.identifier with
    | .error failure => return (walk.findings, .error failure)
    | .ok id => return (walk.findings, ← (collectShared id).run)

end SchemaCompiler.Resolver
