import SchemaCompiler.Text.Blank
import SchemaCompiler.Text.Split

/-!
# IPv6 addresses

Eight pieces of 16 bits in hexadecimal, joined by colons. `::` stands once for one or more pieces
of zero, and the last two pieces can be written as an IPv4 address. The canonical text shortens the
first longest run of zeros, from two on.
-/

namespace SchemaCompiler.Uri.Ipv6

/-- A piece: one to four hexadecimal digits. -/
def readPiece? (cs : List Char) : Option Nat :=
  if 4 < cs.length then none else Text.numeral? 16 cs

/-- A byte in decimal, without leading zeros. -/
def readByte? (cs : List Char) : Option Nat :=
  match cs with
  | '0' :: _ :: _ => none
  | cs => (Text.numeral? 10 cs).bind fun n => if n ≤ 255 then some n else none

/-- Two pieces written as four bytes joined by points. -/
def readBytes? (cs : List Char) : Option (List Nat) :=
  match (Text.splitOn (· == '.') cs).mapM readByte? with
  | some [a, b, c, d] => some [256 * a + b, 256 * c + d]
  | _ => none

/-- Pieces joined by colons; only the last may be written as bytes, and only where `bytes` says
so. -/
def readPieces? (bytes : Bool) : List (List Char) → Option (List Nat)
  | [] => some []
  | [last] =>
    if bytes && last.contains '.' then readBytes? last else (readPiece? last).map ([·])
  | piece :: rest => do return (← readPiece? piece) :: (← readPieces? bytes rest)

/-- The pieces of a text that is empty or joined by colons. -/
def readSide? (bytes : Bool) (cs : List Char) : Option (List Nat) :=
  if cs.isEmpty then some [] else readPieces? bytes (Text.splitOn (· == ':') cs)

/-- The eight pieces of an address, if a text is one. -/
def parse? (cs : List Char) : Option (List Nat) :=
  match Text.splitAtPair ':' ':' cs with
  | some (left, right) => do
    let left ← readSide? false left
    let right ← readSide? true right
    let written := left.length + right.length
    if written ≤ 7 then some (left ++ List.replicate (8 - written) 0 ++ right) else none
  | none => do
    let pieces ← readSide? true cs
    if pieces.length = 8 then some pieces else none

/-- The length of the run of zeros at the start of a list. -/
def zeroRun (pieces : List Nat) : Nat := (pieces.takeWhile (· == 0)).length

/-- The start and length of the first longest run of zeros. -/
def longestRun (pieces : List Nat) : Nat × Nat :=
  (List.range pieces.length).foldl
    (fun best k =>
      let run := zeroRun (pieces.drop k)
      if best.2 < run then (k, run) else best)
    (0, 0)

/-- Pieces in lower-case hexadecimal, joined by colons. -/
def joined (pieces : List Nat) : List Char := [':'].intercalate (pieces.map (Nat.toDigits 16))

/-- The canonical text of eight pieces. -/
def text (pieces : List Nat) : List Char :=
  let (start, run) := longestRun pieces
  if run < 2 then joined pieces
  else joined (pieces.take start) ++ [':', ':'] ++ joined (pieces.drop (start + run))

end SchemaCompiler.Uri.Ipv6
