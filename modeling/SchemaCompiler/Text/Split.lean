/-!
# Cutting lists of characters

`splitOn` cuts at every character of a class, `splitAtPair` at the first place where two given
characters stand side by side.
-/

namespace SchemaCompiler.Text

/-- The pieces between the characters that satisfy `p`: one piece more than such characters. -/
def splitOn (p : Char → Bool) : List Char → List (List Char)
  | [] => [[]]
  | c :: cs =>
    if p c then [] :: splitOn p cs
    else
      match splitOn p cs with
      | [] => [[c]]
      | piece :: rest => (c :: piece) :: rest

/-- The parts before and after the first place where `a` and `b` stand side by side. -/
def splitAtPair (a b : Char) : List Char → Option (List Char × List Char)
  | c :: d :: rest =>
    if c = a ∧ d = b then some ([], rest)
    else (splitAtPair a b (d :: rest)).map fun (before, rest) => (c :: before, rest)
  | _ => none

/-- The parts before and after the last character that satisfies `p`, which is in neither. -/
def splitAtLast (p : Char → Bool) : List Char → Option (List Char × List Char)
  | [] => none
  | c :: cs =>
    match splitAtLast p cs with
    | some (before, rest) => some (c :: before, rest)
    | none => if p c then some ([], cs) else none

theorem splitOn_ne_nil (p : Char → Bool) (cs : List Char) : splitOn p cs ≠ [] := by
  cases cs with
  | nil => simp [splitOn]
  | cons c cs =>
    simp only [splitOn]
    split
    · simp
    · split <;> simp

end SchemaCompiler.Text
