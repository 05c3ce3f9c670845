import SchemaCompiler.Yaml.Node
import SchemaCompiler.Yaml.Scalar

/-!
# YAML trees

A document with every alias replaced by the node it stands for. A document that nests more than 128
collections, or that has too many aliases for its size, has no tree. `Tree.datum?` is what a tree
stands for by itself, whoever reads it: it fails where a mapping has a key twice, an integer does
not fit 64 bits or a scalar does not fit its tag.
-/

namespace SchemaCompiler.Yaml

/-- A document without aliases. -/
inductive Tree where
  | scalar (tag : Option String) (style : Style) (text : String)
  | sequence (tag : Option String) (items : List Tree)
  | mapping (tag : Option String) (pairs : List (Tree × Tree))
deriving Inhabited

namespace Tree

/-- How deep collections may be nested. -/
def maxDepth : Nat := 128

/-- The trees of a list, one after another; the state counts the aliases that were followed. -/
def expandList (expand : Node → StateT Nat Option Tree) : List Node → StateT Nat Option (List Tree)
  | [] => return []
  | node :: rest => return (← expand node) :: (← expandList expand rest)

/-- The trees of keys and values, one after another. -/
def expandPairs (expand : Node → StateT Nat Option Tree) :
    List (Node × Node) → StateT Nat Option (List (Tree × Tree))
  | [] => return []
  | (key, value) :: rest =>
    return (← expand key, ← expand value) :: (← expandPairs expand rest)

/-- The node that a node stands for, which is no alias; following an alias counts towards a
limit. -/
def follow (anchors : Anchors) (limit : Nat) (node : Node) : StateT Nat Option Node :=
  match node with
  | .alias number => fun followed =>
    if limit ≤ followed then none
    else (anchors.node? number).map fun node => (node, followed + 1)
  | node => return node

/-- The tree of a node, with so many levels of collections. -/
def expand (anchors : Anchors) (limit : Nat) : Nat → Node → StateT Nat Option Tree
  | depth, node => do
    match ← follow anchors limit node, depth with
    | .scalar tag style text, _ => return scalar tag style text
    | .sequence tag items, depth + 1 =>
      return sequence tag (← expandList (expand anchors limit depth) items)
    | .mapping tag pairs, depth + 1 =>
      return mapping tag (← expandPairs (expand anchors limit depth) pairs)
    | _, _ => failure

/-- The tree of a document; the tree of an empty one is absent. -/
def ofDocument? (document : Document) : Option (Option Tree) :=
  match document.root with
  | none => some none
  | some root =>
    ((expand document.anchors (100 * root.steps) maxDepth root).run 0).map fun (tree, _) =>
      some tree

/-! ### Data -/

/-- What a tree stands for by itself. -/
inductive Datum where
  | scalar (value : Scalar)
  | sequence (items : List Datum)
  | mapping (pairs : List (Datum × Datum))
  /-- A value of a local type. -/
  | tagged (tag : String) (value : Datum)
deriving BEq

/-- A value under its local tag, if it has one. -/
def Datum.withTag (tag : Option String) (datum : Datum) : Datum :=
  match Scalar.localTag? tag with
  | some name => tagged name datum
  | none => datum

/-- Whether an integer of 64 bits holds the value, if it is an integer. -/
def Datum.fits : Scalar → Bool
  | .wide _ => false
  | _ => true

mutual

/-- What a tree stands for, if it stands for anything. -/
def datum? : Tree → Option Datum
  | scalar tag style text =>
    match Scalar.resolve? tag style text with
    | some value =>
      if Datum.fits value then some ((Datum.scalar value).withTag tag) else none
    | none => none
  | sequence tag items => (dataOfList? items).map fun data => (Datum.sequence data).withTag tag
  | mapping tag pairs =>
    (dataOfPairs? pairs).map fun data => (Datum.mapping data).withTag tag

/-- What the entries of a sequence stand for. -/
def dataOfList? : List Tree → Option (List Datum)
  | [] => some []
  | tree :: rest =>
    match datum? tree, dataOfList? rest with
    | some datum, some data => some (datum :: data)
    | _, _ => none

/-- What keys and values stand for; no key may come again. -/
def dataOfPairs? : List (Tree × Tree) → Option (List (Datum × Datum))
  | [] => some []
  | (key, value) :: rest =>
    match datum? key, datum? value, dataOfPairs? rest with
    | some key, some value, some data =>
      if data.any fun (other, _) => other == key then none else some ((key, value) :: data)
    | _, _, _ => none

end

end Tree

end SchemaCompiler.Yaml
