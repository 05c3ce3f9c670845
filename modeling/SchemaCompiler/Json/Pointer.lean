import SchemaCompiler.Json.Basic
import SchemaCompiler.Text.Split
import SchemaCompiler.Uri.Percent

/-!
# JSON pointers

A pointer names a value inside another by the keys and indices that lead there.
-/

namespace SchemaCompiler.Json

/-- A step of a pointer; `~1` stands for a slash and `~0` for a tilde. -/
def pointerStep : List Char → List Char
  | '~' :: '1' :: rest => '/' :: pointerStep rest
  | '~' :: '0' :: rest => '~' :: pointerStep rest
  | c :: rest => c :: pointerStep rest
  | [] => []

/-- The value one step in: under a key, or at an index. -/
def child? (step : List Char) : Json → Option Json
  | object members => members.lookup (String.ofList step)
  | array items => (Text.numeral? 10 step).bind fun index => items[index]?
  | _ => none

/-- The value that a pointer leads to: the value itself for the empty one. -/
def follow? (pointer : List Char) (value : Json) : Option Json :=
  match Text.splitOn (· == '/') pointer with
  | [] :: steps => steps.foldlM (fun value step => child? (pointerStep step) value) value
  | _ => none

end SchemaCompiler.Json
