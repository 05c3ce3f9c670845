import SchemaCompiler.Yaml.Token.Stream

/-!
# YAML documents

The one document of a YAML text as a node. `Document.ofText?` gives none where the text is no YAML
or has more than one document.
-/

namespace SchemaCompiler.Yaml

/-- A node of a document. Aliases stand for anchored nodes by number. -/
inductive Node where
  | scalar (tag : Option String) (style : Style) (text : String)
  | sequence (tag : Option String) (items : List Node)
  | mapping (tag : Option String) (pairs : List (Node × Node))
  | alias (anchor : Nat)
deriving Inhabited

/-- A node that is not written. -/
def Node.absent : Node := .scalar none .plain ""

/-- The anchors of a document. A name that is given again gets a new number; numbers count names,
so a number may be used again, and then the node that starts last has it. -/
structure Anchors where
  /-- The number of each name. -/
  numbers : List (List Char × Nat) := []
  /-- How many anchored nodes have started. -/
  started : Nat := 0
  /-- The number of each anchored node, which one it was in order of start, and the node. -/
  nodes : List (Nat × Nat × Node) := []

namespace Anchors

/-- Starts an anchored node; its number. -/
def start (a : Anchors) (name : List Char) : Nat × Anchors :=
  let number := a.numbers.length
  (number,
    { a with
      numbers := (name, number) :: a.numbers.filter fun (other, _) => other != name
      started := a.started + 1 })

/-- The node of a number: of those that have it, the one that started last. -/
def node? (a : Anchors) (number : Nat) : Option Node :=
  (a.nodes.foldl
    (fun (best : Option (Nat × Node)) (n, order, node) =>
      if n != number then best
      else
        match best with
        | some (last, found) => if last < order then some (order, node) else some (last, found)
        | none => some (order, node))
    none).map (·.2)

end Anchors

/-- What is left to read of a document. -/
structure Remaining where
  tokens : List Token
  /-- What the handles of tags stand for. -/
  handles : List (List Char × List Char) := []
  anchors : Anchors := {}

namespace Node

/-- A part of a document that is read from its tokens. -/
abbrev Reader := StateT Remaining Option

/-- The next token. -/
def peek : Reader (Option Token) := fun r => some (r.tokens.head?, r)

/-- Moves past a token. -/
def next : Reader Unit := fun r => some ((), { r with tokens := r.tokens.drop 1 })

/-- Moves past a token that has to come next. -/
def require (token : Token) : Reader Unit := fun r =>
  match r.tokens with
  | t :: rest => if t = token then some ((), { r with tokens := rest }) else none
  | [] => none

/-- The tags that are known without a directive. -/
def standardHandles : List (List Char × List Char) :=
  [(['!'], ['!']), (['!', '!'], "tag:yaml.org,2002:".toList)]

/-- The tag of a handle and suffix. -/
def resolveTag (handle suffix : List Char) : Reader String := fun r =>
  if handle.isEmpty then some (String.ofList suffix, r)
  else
    match (r.handles ++ standardHandles).lookup handle with
    | some start => some (String.ofList (start ++ suffix), r)
    | none => none

/-- The anchor and tag before a node, in either order. -/
def properties : Reader (Option (List Char) × Option String) := do
  match ← peek with
  | some (.anchor name) =>
    next
    match ← peek with
    | some (.tag handle suffix) => next; return (some name, some (← resolveTag handle suffix))
    | _ => return (some name, none)
  | some (.tag handle suffix) =>
    next
    match ← peek with
    | some (.anchor name) => next; return (some name, some (← resolveTag handle suffix))
    | _ => return (none, some (← resolveTag handle suffix))
  | _ => return (none, none)

/-- A node that may be anchored. -/
def anchored (name : Option (List Char)) (content : Reader Node) : Reader Node := do
  match name with
  | none => content
  | some name =>
    let r ← get
    let (number, anchors) := r.anchors.start name
    set { r with anchors }
    let node ← content
    modify fun r =>
      { r with anchors.nodes := (number, anchors.started, node) :: r.anchors.nodes }
    return node

/-- The node of an alias; the name has to be known. -/
def aliased (name : List Char) : Reader Node := fun r =>
  (r.anchors.numbers.lookup name).map fun number => (.alias number, r)

/-- Reads a node unless one of some tokens comes next, which leaves it absent. -/
def orAbsent (stops : Token → Bool) (read : Reader Node) : Reader Node := do
  match ← peek with
  | some token => if stops token then return absent else read
  | none => read

/-- Whether a token ends an entry of a block sequence. -/
def endsEntry (token : Token) : Bool := token = .blockEntry || token = .blockEnd

/-- Whether a token ends a key or value in a block. -/
def endsInBlock (token : Token) : Bool := token = .key || token = .value || token = .blockEnd

/-- Whether a token ends an entry within square brackets. -/
def endsInSequence (token : Token) : Bool := token = .flowEntry || token = .flowSequenceEnd

/-- Whether a token ends a value within braces. -/
def endsInMapping (token : Token) : Bool := token = .flowEntry || token = .flowMappingEnd

/-- The tag of a scalar; the mark `!` alone says nothing. -/
def scalarTag (tag : Option String) : Option String := tag.filter (· != "!")

mutual

/-- A node. `block` says whether a block may begin, `dashes` whether entries of a sequence may
stand at the column of the block around them. -/
def read : Nat → (block dashes : Bool) → Reader Node
  | 0, _, _ => failure
  | fuel + 1, block, dashes => do
    match ← peek with
    | some (.alias name) => next; aliased name
    | _ =>
      let (anchor, tag) ← properties
      anchored anchor (content fuel block dashes (anchor.isSome || tag.isSome) tag)

/-- A node after its anchor and tag; `marked` says whether it has either. -/
def content : Nat → (block dashes marked : Bool) → Option String → Reader Node
  | 0, _, _, _, _ => failure
  | fuel + 1, block, dashes, marked, tag => do
    match ← peek with
    | some (.scalar style text) =>
      next
      return scalar (scalarTag tag) style (String.ofList text)
    | some .flowSequenceStart => next; return sequence tag (← flowItems fuel true)
    | some .flowMappingStart => next; return mapping tag (← flowPairs fuel true)
    | some .blockEntry =>
      if dashes then return sequence tag (← dashItems fuel)
      else if marked then return scalar (scalarTag tag) .plain ""
      else failure
    | some .blockSequenceStart =>
      if block then next; return sequence tag (← blockItems fuel)
      else if marked then return scalar (scalarTag tag) .plain ""
      else failure
    | some .blockMappingStart =>
      if block then next; return mapping tag (← blockPairs fuel)
      else if marked then return scalar (scalarTag tag) .plain ""
      else failure
    | _ => if marked then return scalar (scalarTag tag) .plain "" else failure

/-- The entries of a block sequence. -/
def blockItems : Nat → Reader (List Node)
  | 0 => failure
  | fuel + 1 => do
    match ← peek with
    | some .blockEntry =>
      next
      let item ← orAbsent endsEntry (read fuel true false)
      return item :: (← blockItems fuel)
    | some .blockEnd => next; return []
    | _ => failure

/-- The entries of a sequence at the column of the mapping around it. -/
def dashItems : Nat → Reader (List Node)
  | 0 => failure
  | fuel + 1 => do
    match ← peek with
    | some .blockEntry =>
      next
      let item ← orAbsent (fun t => endsEntry t || endsInBlock t) (read fuel true false)
      return item :: (← dashItems fuel)
    | _ => return []

/-- The value after a key of a block mapping. -/
def blockValue : Nat → Reader Node
  | 0 => failure
  | fuel + 1 => do
    match ← peek with
    | some .value => next; orAbsent endsInBlock (read fuel true true)
    | _ => return absent

/-- The keys and values of a block mapping. -/
def blockPairs : Nat → Reader (List (Node × Node))
  | 0 => failure
  | fuel + 1 => do
    match ← peek with
    | some .key =>
      next
      let key ← orAbsent endsInBlock (read fuel true true)
      let value ← blockValue fuel
      return (key, value) :: (← blockPairs fuel)
    | some .blockEnd => next; return []
    | _ => failure

/-- The value after a key within brackets of some kind. -/
def flowValue : Nat → (stops : Token → Bool) → Reader Node
  | 0, _ => failure
  | fuel + 1, stops => do
    match ← peek with
    | some .value => next; orAbsent stops (read fuel false false)
    | _ => return absent

/-- One key and its value within square brackets. -/
def flowPair : Nat → Reader Node
  | 0 => failure
  | fuel + 1 => do
    match ← peek with
    | some token =>
      let stopped := token = .value || endsInSequence token
      let key ← if stopped then do next; pure absent else read fuel false false
      let value ← flowValue fuel endsInSequence
      return mapping none [(key, value)]
    | none => failure

/-- The entries within square brackets; a comma stands before each but the first. -/
def flowItems : Nat → (first : Bool) → Reader (List Node)
  | 0, _ => failure
  | fuel + 1, first => do
    match ← peek with
    | some .flowSequenceEnd => next; return []
    | _ =>
      if !first then require .flowEntry
      match ← peek with
      | some .flowSequenceEnd => next; return []
      | some .key =>
        next
        let item ← flowPair fuel
        return item :: (← flowItems fuel false)
      | _ =>
        let item ← read fuel false false
        return item :: (← flowItems fuel false)

/-- The keys and values within braces; a comma stands before each pair but the first. -/
def flowPairs : Nat → (first : Bool) → Reader (List (Node × Node))
  | 0, _ => failure
  | fuel + 1, first => do
    match ← peek with
    | some .flowMappingEnd => next; return []
    | _ =>
      if !first then require .flowEntry
      match ← peek with
      | some .flowMappingEnd => next; return []
      | some .key =>
        next
        let key ← orAbsent (fun t => t = .value || endsInMapping t) (read fuel false false)
        let value ← flowValue fuel endsInMapping
        return (key, value) :: (← flowPairs fuel false)
      | _ =>
        let key ← read fuel false false
        return (key, absent) :: (← flowPairs fuel false)

end

/-- The number of steps in which a document is told: one for a scalar or alias, two around the
entries of a collection. -/
def steps : Node → Nat
  | .scalar _ _ _ | .alias _ => 1
  | .sequence _ items => 2 + stepsOfList items
  | .mapping _ pairs => 2 + stepsOfPairs pairs
where
  /-- The steps of the entries of a sequence. -/
  stepsOfList : List Node → Nat
    | [] => 0
    | node :: rest => node.steps + stepsOfList rest
  /-- The steps of the keys and values of a mapping. -/
  stepsOfPairs : List (Node × Node) → Nat
    | [] => 0
    | (key, value) :: rest => key.steps + value.steps + stepsOfPairs rest

end Node

/-- A document: its node, unless the text has none, and its anchors. -/
structure Document where
  root : Option Node
  anchors : Anchors

namespace Document

/-- The directives before a document: at most one version, which has to be 1.1 or 1.2, and no two
meanings for a handle. -/
def directives : (version : Bool) → List (List Char × List Char) → List Token →
    Option (List (List Char × List Char) × List Token)
  | version, handles, .versionDirective major minor :: rest =>
    if version || major != 1 || (minor != 1 && minor != 2) then none
    else directives true handles rest
  | version, handles, .tagDirective handle start :: rest =>
    if handles.any fun (other, _) => other == handle then none
    else directives version (handles ++ [(handle, start)]) rest
  | _, handles, rest => some (handles, rest)

/-- Whether a token cannot begin the content of a document. -/
def endsContent : Token → Bool
  | .versionDirective _ _ | .tagDirective _ _ | .documentStart | .documentEnd => true
  | _ => false

/-- The content of a document, which has to be all that is left but for marks of its end. -/
def ofContent? (handles : List (List Char × List Char)) (tokens : List Token) (mayBeAbsent : Bool) :
    Option Document :=
  let finish (root : Node) (r : Remaining) : Option Document :=
    if r.tokens.all (· = .documentEnd) then some ⟨some root, r.anchors⟩ else none
  let start : Remaining := { tokens, handles }
  if mayBeAbsent && (tokens.isEmpty || (tokens.take 1).any endsContent) then
    finish Node.absent start
  else
    (Node.read (3 * tokens.length + 8) true false start).bind fun (root, r) => finish root r

/-- The document of a list of tokens. -/
def ofTokens? (tokens : List Token) : Option Document :=
  match tokens with
  | [] => some ⟨none, {}⟩
  | .versionDirective _ _ :: _ | .tagDirective _ _ :: _ | .documentStart :: _ =>
    match directives false [] tokens with
    | some (handles, .documentStart :: rest) => ofContent? handles rest true
    | _ => none
  | _ => ofContent? [] tokens false

/-- The document of a text. -/
def ofText? (text : String) : Option Document := (Token.ofText? text).bind ofTokens?

end Document

end SchemaCompiler.Yaml
