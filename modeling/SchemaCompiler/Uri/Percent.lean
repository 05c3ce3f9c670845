import SchemaCompiler.Text.Blank

/-!
# Percent encoding

Characters that a part of a URI cannot hold are written as their UTF-8 bytes, each as `%` and two
hexadecimal digits.
-/

namespace SchemaCompiler.Uri

/-- A byte as `%` and two upper-case hexadecimal digits. -/
def encodeByte (b : UInt8) : List Char :=
  let digit (n : Nat) : Char := (Nat.digitChar n).toUpper
  ['%', digit (b.toNat / 16), digit (b.toNat % 16)]

/-- The text with every character that `encodes` selects written in bytes. -/
def percentEncode (encodes : Char → Bool) (cs : List Char) : List Char :=
  cs.flatMap fun c =>
    if encodes c then (String.utf8EncodeChar c).flatMap encodeByte else [c]

/-- The bytes of a text in which `%` and two hexadecimal digits stand for a byte; a `%` without
two digits stands for itself. -/
def percentBytes : List Char → List UInt8
  | '%' :: a :: b :: rest =>
    match Text.digitValue? 16 a, Text.digitValue? 16 b with
    | some high, some low => UInt8.ofNat (16 * high + low) :: percentBytes rest
    | _, _ => '%'.toUInt8 :: percentBytes (a :: b :: rest)
  | c :: rest => String.utf8EncodeChar c ++ percentBytes rest
  | [] => []

/-- The text whose bytes a percent-encoded text stands for, if they are UTF-8. -/
def percentDecode? (cs : List Char) : Option (List Char) :=
  (String.fromUTF8? ⟨(percentBytes cs).toArray⟩).map String.toList

/-- Control characters and everything outside ASCII. -/
def isControl (c : Char) : Bool := c.toNat < 0x20 || 0x7F ≤ c.toNat

/-- What a path cannot hold. -/
def encodedInPath (c : Char) : Bool :=
  isControl c || [' ', '"', '#', '<', '>', '?', '`', '{', '}'].contains c

/-- What a user name or password cannot hold. -/
def encodedInUserinfo (c : Char) : Bool :=
  encodedInPath c || ['/', ':', ';', '=', '@', '[', '\\', ']', '^', '|'].contains c

end SchemaCompiler.Uri
