/-! # Decimal numbers

Numbers are written in ASCII digits without leading zeros, and read from one or
more ASCII digits with any number of leading zeros. A reader states its range:
a number outside it is no number.
-/

namespace Tabular.Text

def ofNat (n : Nat) : String :=
  n.repr

/-- The digits of an integer, after a minus sign if it is negative. -/
def ofInt : Int → String
  | .ofNat n => ofNat n
  | .negSucc n => "-" ++ ofNat (n + 1)

def natural? (cs : List Char) : Option Nat :=
  if cs.isEmpty || !cs.all Char.isDigit then none else some (Nat.ofDigitChars 10 cs 0)

/-- A number below `limit`, with at most one plus sign before its digits. -/
def unsigned? (limit : Nat) (cs : List Char) : Option Nat :=
  let digits := match cs with
    | '+' :: rest => rest
    | _ => cs
  match natural? digits with
  | some n => if n < limit then some n else none
  | none => none

/-- A 64-bit integer, with at most one sign before its digits. -/
def integer? (cs : List Char) : Option Int64 :=
  match cs with
  | '-' :: digits =>
    match natural? digits with
    | some n => if n ≤ 0x8000000000000000 then some (Int64.ofInt (-(n : Int))) else none
    | none => none
  | _ => (unsigned? 0x8000000000000000 cs).map fun n => Int64.ofInt n

end Tabular.Text
