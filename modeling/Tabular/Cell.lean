import Tabular.Error

/-! # Cells

The stored form of one value. Integers and dates are four bytes, signed, the
lowest byte first. A text is its UTF-8 encoding, filled up with zero bytes to
the width of the column; a text that is too long is cut after the last whole
character that fits, and zero bytes at the end of a cell are never part of its
text.
-/

namespace Tabular.Cell

def readInt (bytes : Bytes) : Int :=
  Int.bmod (bytes.foldr (fun b high => b.toNat + 256 * high) 0) 0x100000000

def writeInt (n : Int) : Bytes :=
  let word := (n % 0x100000000).toNat
  [UInt8.ofNat word, UInt8.ofNat (word / 0x100), UInt8.ofNat (word / 0x10000),
    UInt8.ofNat (word / 0x1000000)]

/-- The bytes without the zero bytes at their end. -/
def withoutPadding (bytes : Bytes) : Bytes :=
  (bytes.reverse.dropWhile (· == 0)).reverse

/-- The longest beginning of a text that fits into a number of bytes. -/
def fitting (room : Nat) : List Char → List Char
  | [] => []
  | c :: rest => if c.utf8Size ≤ room then c :: fitting (room - c.utf8Size) rest else []

def padded (width : Nat) (bytes : Bytes) : Bytes :=
  bytes ++ List.replicate (width - bytes.length) 0

/-- The value in the cell that the bytes start with. -/
def decode (type : ColumnType) (bytes : Bytes) : Outcome Value :=
  if bytes.length < type.width then .error (.corruption (.shortCell type bytes.length))
  else
    let cell := bytes.take type.width
    if type.isInteger then .ok (.integer (Int64.ofInt (readInt cell)))
    else
      match Utf8.decode (withoutPadding cell) with
      | .ok text => .ok (.text text)
      | .error fault => .error (.corruption (.badText type fault))

/-- The cell of a value. The column's name appears in the error of a value of
the wrong kind. -/
def encode (column : String) (type : ColumnType) (value : Value) : Outcome Bytes :=
  match type, value with
  | .char width, .text s =>
    .ok (padded width (Utf8.encode (String.ofList (fitting width s.toList))))
  | .char _, .integer _ => .error (.typeMismatch column type value.kind)
  | _, .integer n =>
    if -0x80000000 ≤ n.toInt ∧ n.toInt < 0x80000000 then .ok (writeInt n.toInt)
    else .error (.valueOutOfRange n type)
  | _, .text _ => .error (.typeMismatch column type value.kind)

end Tabular.Cell
