/-! # Bytes and machine words

Tables, files and encoded texts are byte strings. File offsets, byte counts and
row indexes are 64-bit words. They are kept as natural numbers; what happens
where a sum or a product leaves the word is said here: it is refused, it stops
at the largest word, or it starts again at zero.
-/

namespace Tabular

/-- A string of bytes. -/
abbrev Bytes := List UInt8

namespace Word

/-- The number of 64-bit words. -/
def count : Nat := 0x10000000000000000

def max : Nat := count - 1

def add? (a b : Nat) : Option Nat :=
  if a + b < count then some (a + b) else none

def mul? (a b : Nat) : Option Nat :=
  if a * b < count then some (a * b) else none

/-- The sum, or the largest word if it is beyond. -/
def addSaturating (a b : Nat) : Nat :=
  min (a + b) max

def addWrapping (a b : Nat) : Nat :=
  (a + b) % count

end Word

end Tabular
