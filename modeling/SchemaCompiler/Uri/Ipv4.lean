import SchemaCompiler.Text.Blank
import SchemaCompiler.Text.Split

/-!
# IPv4 addresses

A host whose last label is a number has to be an IPv4 address: up to four numbers, decimal, octal
after `0` or hexadecimal after `0x`, of which the last fills all the bytes that are left.
-/

namespace SchemaCompiler.Uri.Ipv4

/-- What one label of a host is as a number. -/
inductive Label where
  | number (value : Nat)
  /-- A numeral beyond 32 bits. -/
  | tooLarge
  | notNumeric

/-- The digits of a label as a number of a base; no digits are zero. -/
def ofDigits (base : Nat) (digits : List Char) : Label :=
  if digits.isEmpty then .number 0
  else
    match Text.numeral? base digits with
    | some n => if n ≤ 0xFFFFFFFF then .number n else .tooLarge
    | none => .notNumeric

/-- A label of a host as a number. -/
def readLabel : List Char → Label
  | [] => .notNumeric
  | '0' :: 'x' :: digits => ofDigits 16 digits
  | '0' :: 'X' :: digits => ofDigits 16 digits
  | '0' :: d :: digits => ofDigits 8 (d :: digits)
  | digits => ofDigits 10 digits

/-- The labels of a host, without the empty one after a final point. -/
def labels (host : List Char) : List (List Char) :=
  let pieces := Text.splitOn (· == '.') host
  match pieces.getLast? with
  | some [] => if pieces.length = 1 then pieces else pieces.dropLast
  | _ => pieces

/-- Whether the last label of a host is a number, so that the host has to be an address. -/
def endsInNumber (host : List Char) : Bool :=
  match (labels host).getLast? with
  | some [] | none => false
  | some last =>
    last.all Text.isAsciiDigit ||
      match readLabel last with
      | .notNumeric => false
      | _ => true

/-- The 32 bits of an address: one byte for each number but the last, which takes the rest. -/
def ofNumbers? : List Nat → Option Nat
  | numbers =>
    match numbers.getLast? with
    | none => none
    | some last =>
      let leading := numbers.dropLast
      let room := Nat.pow 256 (4 - leading.length)
      if 4 < numbers.length ∨ leading.any (255 < ·) ∨ room ≤ last then none
      else some (leading.zipIdx.foldl (fun acc (n, k) => acc + n * Nat.pow 256 (3 - k)) last)

/-- The address that a host is, if it is one. -/
def parse? (host : List Char) : Option Nat := do
  let numbers ← (labels host).mapM fun label =>
    match readLabel label with
    | .number n => some n
    | _ => none
  ofNumbers? numbers

/-- The four bytes in decimal, joined by points. -/
def text (address : Nat) : List Char :=
  ['.'].intercalate ([3, 2, 1, 0].map fun k => Nat.toDigits 10 (address / Nat.pow 256 k % 256))

end SchemaCompiler.Uri.Ipv4
