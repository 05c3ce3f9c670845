import SchemaCompiler.Generator
import SchemaCompiler.Proofs.TypeGraph.Permission

/-!
# Allowing more types

A run may allow types with any value.  A root that has a graph without them keeps its graph, its
findings and its document when they are allowed (`Generator.permissive_keeps`).  The extraction
keeps what it succeeds with (`TypeSource.permissive_extract`), and schemas are built from the graph
without a look at the setting, so resolution is the same walk (`Resolver.resolve_permissive`).
-/

namespace SchemaCompiler

namespace Configuration

variable (c : Configuration)

/-- The settings with types that accept any value allowed. -/
def permissive : Configuration := { c with allowAny := true }

/-- Types have the same schemas, whatever is allowed. -/
lemma typeNode_permissive (type : ResolvedType) : c.permissive.typeNode type = c.typeNode type := by
  have hnull : c.permissive.nullInclusion = c.nullInclusion := rfl
  have hbytes : c.permissive.binaryAsArray = c.binaryAsArray := rfl
  exact typeNode_congr hnull hbytes type

/-- Properties have the same schemas, whatever is allowed. -/
lemma propertyNode_permissive (p : PropertyDescription) :
    c.permissive.propertyNode p = c.propertyNode p := by
  unfold propertyNode
  rw [typeNode_permissive]
  rfl

/-- Declared types have the same schemas, whatever is allowed. -/
lemma build_permissive (t : TypeDescription) : c.permissive.build t = c.build t := by
  unfold build
  rw [funext c.typeNode_permissive, funext c.propertyNode_permissive]
  rfl

end Configuration

namespace Resolver

variable (r : Resolver)

/-- The resolver under settings that allow more. -/
def permissive : Resolver := { r with config := r.config.permissive }

/-- Definitions are the same, whatever is allowed. -/
lemma define_permissive (t : TypeDescription) : r.permissive.define t = r.define t := by
  unfold define
  rw [permissive, Configuration.build_permissive]
  rfl

/-- Types are expanded in the same way, whatever is allowed. -/
lemma expand_permissive (visit : Walk → TypeName → Except Stopped Walk) :
    r.permissive.expand visit = r.expand visit := by
  funext walk t
  unfold expand leave
  rw [define_permissive]
  have hbuild : r.permissive.config.build t = r.config.build t := r.config.build_permissive t
  rw [hbuild]
  -- Identifiers and findings are made from other settings.
  rfl

/-- A walk over the types of a graph is the same, whatever is allowed. -/
lemma visit_permissive (depth : Nat) : r.permissive.visit depth = r.visit depth := by
  induction depth with
  | zero =>
    funext walk name
    unfold visit
    rfl
  | succ depth ih =>
    funext walk name
    unfold visit
    dsimp only
    rw [ih, expand_permissive]
    rfl

/-- A root has the same definitions, whatever is allowed. -/
lemma resolve_permissive (registry : Registry) (root : TypeName) :
    r.permissive.resolve registry root = r.resolve registry root := by
  have hwalk : r.permissive.walkFrom registry root = r.walkFrom registry root := by
    unfold walkFrom
    rw [visit_permissive, expand_permissive]
    rfl
  unfold resolve
  rw [hwalk]
  rfl

end Resolver

namespace Generator

variable (g : Generator)

/-- The run under settings that allow types with any value. -/
def permissive : Generator := { g with config := { g.config with allowAny := true } }

/-- A root with a graph keeps it, with the same findings, when types with any value are allowed, and
its document is the same on every registry. -/
theorem permissive_keeps {root : TypeName} {graph : TypeGraph}
    (h : (g.extract root).result = .ok graph) :
    g.permissive.extract root = g.extract root ∧
      ∀ registry, g.permissive.document registry root = g.document registry root := by
  have hextract : g.permissive.extract root = g.extract root :=
    TypeSource.permissive_extract ⟨g.unit, g.config.allowAny⟩ h
  refine ⟨hextract, fun registry => ?_⟩
  have hbase : g.permissive.baseUri = g.baseUri := rfl
  have hresolve : ∀ base, Resolver.resolve ⟨graph, g.permissive.config, base⟩ registry root =
      Resolver.resolve ⟨graph, g.config, base⟩ registry root := fun base =>
    Resolver.resolve_permissive ⟨graph, g.config, base⟩ registry root
  unfold document
  rw [hextract, hbase]
  cases g.baseUri with
  | error failure => rfl
  | ok base =>
    dsimp only
    rw [h]
    dsimp only
    rw [hresolve]
    rfl

/-- A herd of llamas, and a bag of anything. -/
def herdAndBag : Generator where
  unit :=
    { types :=
      [ { name := .topLevel "" "Herd"
          declaration :=
            { name := "Herd"
              properties := [ { name := "llamas", type := .list (.named "Llama") } ] }
          origin := "" },
        { name := .topLevel "" "Llama", declaration := { name := "Llama" }, origin := "" },
        { name := .topLevel "" "Bag"
          declaration :=
            { name := "Bag", properties := [ { name := "content", type := .list .any } ] }
          origin := "" } ] }
  config := { baseUri := some ⟨"https://example.com"⟩ }

/-- The herd keeps its document when the bag gets one. -/
theorem herd_kept :
    herdAndBag.config.allowAny = false ∧
    (∃ graph, (herdAndBag.extract (.topLevel "" "Herd")).result = .ok graph ∧
      graph.types.map (·.name) = [.topLevel "" "Herd", .topLevel "" "Llama"] ∧
      herdAndBag.permissive.extract (.topLevel "" "Herd") =
        herdAndBag.extract (.topLevel "" "Herd") ∧
      herdAndBag.permissive.document {} (.topLevel "" "Herd") =
        herdAndBag.document {} (.topLevel "" "Herd")) ∧
    (herdAndBag.extract (.topLevel "" "Bag")).result =
      .error (.unsupported "Bag" "content.items" .anyNotAllowed) ∧
    ∃ d, (herdAndBag.permissive.document {} (.topLevel "" "Bag")).2.2 = .ok d := by
  have hgraph : (herdAndBag.extract (.topLevel "" "Herd")).result = .ok _ := rfl
  obtain ⟨hextract, hdocument⟩ := herdAndBag.permissive_keeps hgraph
  exact ⟨rfl, ⟨_, hgraph, rfl, hextract, hdocument {}⟩, rfl, _, rfl⟩

end Generator

end SchemaCompiler
