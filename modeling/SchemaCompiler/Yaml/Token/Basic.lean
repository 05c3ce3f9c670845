/-!
# YAML tokens

The tokens of a YAML text. Blocks that are shown by indentation alone have explicit start and end
tokens.
-/

namespace SchemaCompiler.Yaml

/-- How a scalar is written. -/
inductive Style where
  | plain
  | quoted
  /-- After a bar, with its line breaks. -/
  | literal
  | folded
deriving DecidableEq, Repr

/-- A token of a YAML text. -/
inductive Token where
  | documentStart
  | documentEnd
  | versionDirective (major minor : Nat)
  /-- A handle for tags, and what it stands for. -/
  | tagDirective (handle start : List Char)
  | blockSequenceStart
  | blockMappingStart
  | blockEnd
  | flowSequenceStart
  | flowSequenceEnd
  | flowMappingStart
  | flowMappingEnd
  | blockEntry
  | flowEntry
  | key
  | value
  | alias (name : List Char)
  | anchor (name : List Char)
  | tag (handle suffix : List Char)
  | scalar (style : Style) (text : List Char)
deriving DecidableEq, Repr

end SchemaCompiler.Yaml
