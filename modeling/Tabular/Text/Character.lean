/-! # Characters

Character properties are given by tables of closed ranges of code points.
Keywords, type names and operator words are compared without regard to the case
of the ASCII letters. The characters with the Unicode property White_Space
separate words, may surround a type text, and make up a blank statement.
-/

namespace Tabular.Text

/-- A closed range of code points: its first and its last member. -/
abbrev Range := Nat × Nat

namespace Range

def has (r : Range) (c : Char) : Bool :=
  r.1 ≤ c.toNat && c.toNat ≤ r.2

def anyHas (table : List Range) (c : Char) : Bool :=
  table.any fun r => r.has c

end Range

/-- The text with its ASCII letters in lower case. -/
def lower (s : String) : String :=
  String.ofList (s.toList.map Char.toLower)

/-- The text with its ASCII letters in upper case. -/
def upper (s : String) : String :=
  String.ofList (s.toList.map Char.toUpper)

/-- The code points with the property White_Space. -/
def blankRanges : List Range :=
  [(0x0009, 0x000D), (0x0020, 0x0020), (0x0085, 0x0085), (0x00A0, 0x00A0), (0x1680, 0x1680),
    (0x2000, 0x200A), (0x2028, 0x2029), (0x202F, 0x202F), (0x205F, 0x205F), (0x3000, 0x3000)]

def isBlank (c : Char) : Bool :=
  Range.anyHas blankRanges c

def trimStart (cs : List Char) : List Char :=
  cs.dropWhile isBlank

def trimEnd (cs : List Char) : List Char :=
  (cs.reverse.dropWhile isBlank).reverse

/-- The text without the white space at both of its ends. -/
def trim (cs : List Char) : List Char :=
  trimEnd (trimStart cs)

end Tabular.Text
