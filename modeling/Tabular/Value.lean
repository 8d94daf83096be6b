import Tabular.Text.Decimal
import Tabular.Utf8

/-! # Values

A value is a 64-bit integer or a text. Two values are ordered only if they are
of the same kind: integers by size, texts by the bytes that encode them.
-/

namespace Tabular

/-- One cell of a row, or the literal that a condition compares it with. -/
inductive Value
  | integer (n : Int64)
  | text (s : String)
  deriving DecidableEq

/-- The two kinds of value. -/
inductive ValueKind
  | integer
  | text
  deriving DecidableEq

def ValueKind.name : ValueKind → String
  | .integer => "Integer"
  | .text => "Text"

namespace Value

def kind : Value → ValueKind
  | .integer _ => .integer
  | .text _ => .text

def integer? : Value → Option Int64
  | .integer n => some n
  | .text _ => none

/-- How two values of one kind compare; values of different kinds do not. -/
def compare? : Value → Value → Option Ordering
  | .integer a, .integer b => some (compare a.toInt b.toInt)
  | .text a, .text b => some (Utf8.compare a b)
  | _, _ => none

def display : Value → String
  | .integer n => Text.ofInt n.toInt
  | .text s => s

end Value

end Tabular
