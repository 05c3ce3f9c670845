import SchemaCompiler.FileTree

/-!
# Published schemas by name

Looking up the text of a published schema by its name. A name that would leave the directory of the
schemas names none.
-/

namespace SchemaCompiler.Resources

/-- The file of a schema, whose name may be given with the suffix of files or without it. -/
def fileName (name : String) : String :=
  if SchemaName.fileSuffix.toList.isSuffixOf name.toList then name
  else name ++ SchemaName.fileSuffix

/-- Whether a name could lead out of a directory. -/
def escapes (name : String) : Bool :=
  match name.toList with
  | [] => true
  | '.' :: '.' :: _ => true
  | cs => cs.contains '/' || cs.contains '\\'

/-- The text of a schema in a directory; none if there is no such schema. -/
def get (files : FileTree) (root name : String) : Except FileFault (Option String) :=
  if escapes name then .ok none
  else
    match files.read (Path.join root (fileName name)) with
    | .ok content => some <$> content.text?
    | .error .notFound => .ok none
    | .error fault => .error fault

end SchemaCompiler.Resources
