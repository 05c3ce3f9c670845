/-!
# Texts as literals

A text between double quotes as messages show it: quotes, backslashes and characters that would not
show are escaped.
-/

namespace SchemaCompiler.Text

/-- Characters that do not show by themselves: controls, format characters, spaces other than the
common one, unassigned and private ones, and marks that join the character before. -/
def isHidden (c : Char) : Bool :=
  let n := c.toNat
  n < 0x20 || (0x7F ≤ n && n ≤ 0xA0) || n == 0xAD || (0x300 ≤ n && n ≤ 0x36F) ||
    (0x483 ≤ n && n ≤ 0x489) || (0x591 ≤ n && n ≤ 0x5BD) || (0x600 ≤ n && n ≤ 0x605) ||
    (0x610 ≤ n && n ≤ 0x61A) || n == 0x61C || (0x64B ≤ n && n ≤ 0x65F) || n == 0x1680 ||
    (0x1AB0 ≤ n && n ≤ 0x1AFF) || (0x1DC0 ≤ n && n ≤ 0x1DFF) || (0x2000 ≤ n && n ≤ 0x200F) ||
    (0x2028 ≤ n && n ≤ 0x202F) || (0x205F ≤ n && n ≤ 0x206F) || (0x20D0 ≤ n && n ≤ 0x20F0) ||
    n == 0x3000 || (0x302A ≤ n && n ≤ 0x302F) || n == 0x3099 || n == 0x309A ||
    (0xE000 ≤ n && n ≤ 0xF8FF) || (0xFE00 ≤ n && n ≤ 0xFE0F) || (0xFE20 ≤ n && n ≤ 0xFE2F) ||
    n == 0xFEFF || (0xFFF0 ≤ n && n ≤ 0xFFFB) || 0xE0000 ≤ n

/-- How a character is written in a literal. -/
def literalChar (c : Char) : List Char :=
  match c with
  | '"' => ['\\', '"']
  | '\\' => ['\\', '\\']
  | '\n' => ['\\', 'n']
  | '\r' => ['\\', 'r']
  | '\t' => ['\\', 't']
  | c =>
    if c.toNat = 0 then ['\\', '0']
    else if isHidden c then ['\\', 'u', '{'] ++ Nat.toDigits 16 c.toNat ++ ['}']
    else [c]

/-- A text between double quotes. -/
def literal (s : String) : String := String.ofList ('"' :: (s.toList.flatMap literalChar ++ ['"']))

end SchemaCompiler.Text
