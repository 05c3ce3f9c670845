import SchemaCompiler.CanonicalId
import SchemaCompiler.Schema.Keywords
import SchemaCompiler.TypeExpr.Scalar
import SchemaCompiler.TypeName

/-!
# Schema nodes

A schema as a tree of nodes. Declared types that a node mentions are first `nominal` placeholders;
`Node.link` replaces each by a reference to its definition.
-/

namespace SchemaCompiler

/-- A schema. -/
inductive Node where
  /-- Any value. -/
  | any (keywords : Keywords)
  /-- Null alone. -/
  | null (keywords : Keywords)
  | scalar (primitive : Primitive) (keywords : Keywords)
  /-- One of some texts. -/
  | enum (values : List String) (keywords : Keywords)
  | array (items : Node) (keywords : Keywords)
  /-- An object; `typed` says whether the type itself is asserted. -/
  | object (typed : Bool) (allOf : List Node) (properties : List (String × Node))
      (required : List String) (additional : Option Node) (keywords : Keywords)
  /-- What the inner node accepts, or null. -/
  | nullable (inner : Node)
  /-- What exactly one variant accepts. -/
  | oneOf (variants : List Node) (keywords : Keywords)
  /-- A declared type that is not yet a reference. -/
  | nominal (name : TypeName) (keywords : Keywords)
  /-- A reference to a definition. -/
  | ref (target : CanonicalId) (keywords : Keywords)

namespace Node

/-- The keywords of a node; a nullable one has none of its own. -/
def keywords? : Node → Option Keywords
  | any k | null k | scalar _ k | enum _ k | array _ k | object _ _ _ _ _ k | oneOf _ k
  | nominal _ k | ref _ k => some k
  | nullable _ => none

/-- The node with its keywords changed; a nullable one stays as it is. -/
def mapKeywords (f : Keywords → Keywords) : Node → Node
  | any k => any (f k)
  | null k => null (f k)
  | scalar primitive k => scalar primitive (f k)
  | enum values k => enum values (f k)
  | array items k => array items (f k)
  | object typed allOf properties required additional k =>
    object typed allOf properties required additional (f k)
  | oneOf variants k => oneOf variants (f k)
  | nominal name k => nominal name (f k)
  | ref target k => ref target (f k)
  | nullable inner => nullable inner

/-- The node for values other than null: the one inside every nullable node around it. -/
def value : Node → Node
  | nullable inner => inner.value
  | node => node

/-- Changes the node for values other than null. -/
def mapValue (f : Node → Node) : Node → Node
  | nullable inner => nullable (inner.mapValue f)
  | node => f node

/-- Overlays keywords on those of the node for values other than null. -/
def merge (node : Node) (k : Keywords) : Node :=
  node.mapValue (·.mapKeywords (·.merge k))

mutual

/-- The declared types that a node mentions, in the order of the written schema. -/
def mentions : Node → List TypeName
  | nominal name _ => [name]
  | array items _ => items.mentions
  | nullable inner => inner.mentions
  | oneOf variants _ => mentionsOfList variants
  | object _ allOf properties _ additional _ =>
    mentionsOfList allOf ++ mentionsOfProperties properties ++ mentionsOfOption additional
  | any _ | null _ | scalar _ _ | enum _ _ | ref _ _ => []

/-- The declared types that a list of nodes mentions. -/
def mentionsOfList : List Node → List TypeName
  | [] => []
  | node :: rest => node.mentions ++ mentionsOfList rest

/-- The declared types that properties mention. -/
def mentionsOfProperties : List (String × Node) → List TypeName
  | [] => []
  | (_, node) :: rest => node.mentions ++ mentionsOfProperties rest

/-- The declared types that a node mentions, if there is one. -/
def mentionsOfOption : Option Node → List TypeName
  | none => []
  | some node => node.mentions

end

mutual

/-- The node with every placeholder replaced by a reference that carries the same keywords. -/
def link (target : TypeName → CanonicalId) : Node → Node
  | nominal name k => ref (target name) k
  | array items k => array (items.link target) k
  | nullable inner => nullable (inner.link target)
  | oneOf variants k => oneOf (linkList target variants) k
  | object typed allOf properties required additional k =>
    object typed (linkList target allOf) (linkProperties target properties) required
      (linkOption target additional) k
  | any k => any k
  | null k => null k
  | scalar primitive k => scalar primitive k
  | enum values k => enum values k
  | ref other k => ref other k

/-- Each node of a list with its placeholders replaced. -/
def linkList (target : TypeName → CanonicalId) : List Node → List Node
  | [] => []
  | node :: rest => node.link target :: linkList target rest

/-- Each property with its placeholders replaced. -/
def linkProperties (target : TypeName → CanonicalId) :
    List (String × Node) → List (String × Node)
  | [] => []
  | (name, node) :: rest => (name, node.link target) :: linkProperties target rest

/-- A node, if there is one, with its placeholders replaced. -/
def linkOption (target : TypeName → CanonicalId) : Option Node → Option Node
  | none => none
  | some node => some (node.link target)

end

mutual

/-- The targets of a node's references, in the order of the written schema. -/
def targets : Node → List CanonicalId
  | ref target _ => [target]
  | array items _ => items.targets
  | nullable inner => inner.targets
  | oneOf variants _ => targetsOfList variants
  | object _ allOf properties _ additional _ =>
    targetsOfList allOf ++ targetsOfProperties properties ++ targetsOfOption additional
  | any _ | null _ | scalar _ _ | enum _ _ | nominal _ _ => []

/-- The targets of the references in a list of nodes. -/
def targetsOfList : List Node → List CanonicalId
  | [] => []
  | node :: rest => node.targets ++ targetsOfList rest

/-- The targets of the references in properties. -/
def targetsOfProperties : List (String × Node) → List CanonicalId
  | [] => []
  | (_, node) :: rest => node.targets ++ targetsOfProperties rest

/-- The targets of the references in a node, if there is one. -/
def targetsOfOption : Option Node → List CanonicalId
  | none => []
  | some node => node.targets

end

/-- The targets of a node's references, each at its first place only. -/
def references (node : Node) : List CanonicalId := node.targets.eraseDups

end Node

end SchemaCompiler
