import Tabular.ParseError
import Tabular.Text.Character
import Tabular.Text.Decimal
import Tabular.Text.Place

/-! # Column types

A column holds integers, dates or texts of a fixed number of bytes. A type is
written `Int`, `Date`, `Char` or `Char(n)`; letter case and the white space
around the parts do not matter when it is read.
-/

namespace Tabular

/-- The type of a column. It alone determines how wide a cell is. -/
inductive ColumnType
  | int
  | date
  /-- A text of at most `width` bytes. -/
  | char (width : Nat)
  deriving DecidableEq

namespace ColumnType

/-- Widths are 32-bit numbers: they lie below this limit. -/
def widthLimit : Nat := 0x100000000

/-- The sum of two widths, if it is a width. -/
def addWidths? (a b : Nat) : Option Nat :=
  if a + b < widthLimit then some (a + b) else none

/-- The sum of two widths, or the largest width if it is beyond. -/
def addWidthsSaturating (a b : Nat) : Nat :=
  min (a + b) (widthLimit - 1)

def width : ColumnType → Nat
  | int => 4
  | date => 4
  | char n => n

def isInteger : ColumnType → Bool
  | int => true
  | date => true
  | char _ => false

def name : ColumnType → String
  | int => "Int"
  | date => "Date"
  | char n => "Char(" ++ Text.ofNat n ++ ")"

/-- The type that a name with its optional size denotes. Only texts have a size,
which is positive and below the limit of widths; without one they are one byte wide. -/
def ofParts? (name : List Char) (size : Option (List Char)) : Option ColumnType :=
  match Text.lower (String.ofList (Text.trim name)), size with
  | "int", none => some int
  | "date", none => some date
  | "char", none => some (char 1)
  | "char", some digits =>
    match Text.unsigned? widthLimit (Text.trim digits) with
    | some n => if 0 < n then some (char n) else none
    | none => none
  | _, _ => none

/-- Cuts a type text at its first opening parenthesis. Its last closing one has to
stand behind it and at the end of the text, and what is between them is the size. -/
def read? (text : List Char) : Option ColumnType :=
  match Text.find? '(' text with
  | none => ofParts? text none
  | some start =>
    match Text.rfind? ')' text with
    | none => none
    | some stop =>
      if start < stop ∧ stop = Text.byteLength text - 1 then do
        let name ← Text.slice? 0 start text
        let size ← Text.slice? (start + 1) stop text
        ofParts? name (some size)
      else none

def ofText (text : String) : Except ParseError ColumnType :=
  let trimmed := Text.trim text.toList
  match read? trimmed with
  | some type => .ok type
  | none => .error (.invalidType (String.ofList trimmed))

end ColumnType

end Tabular
