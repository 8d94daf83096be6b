import Tabular.Word

/-! # Chunks

A table is read in bounded pieces. A chunk says where in the table it starts,
which bytes it holds and, if the table goes on behind it, where. Of its data
only the first `validBytes` count, and of these only the whole rows.
-/

namespace Tabular

/-- One bounded read of a table. -/
structure Chunk where
  offset : Nat
  data : Bytes
  /-- How many of them count. -/
  validBytes : Nat
  /-- Where the table goes on, if it does. -/
  nextOffset : Option Nat
  deriving DecidableEq

namespace Chunk

def isTruncated (chunk : Chunk) : Bool :=
  chunk.nextOffset.isSome

/-- The number of whole rows among the bytes that count. There are none of size
zero. -/
def wholeRows (chunk : Chunk) (rowSize : Nat) : Nat :=
  chunk.validBytes / rowSize

/-- The bytes of a row by its index, in data of which some bytes count. There is no
such row if its size is zero, if it ends outside the bytes that count, or if its
place is beyond what a machine word can tell. -/
def rowOf? (data : Array UInt8) (validBytes index rowSize : Nat) : Option Bytes := do
  let start ← Word.mul? index rowSize
  let stop ← Word.add? start rowSize
  if rowSize = 0 ∨ validBytes < stop ∨ data.size < stop then none
  else some (data.extract start stop).toList

def row? (chunk : Chunk) (index rowSize : Nat) : Option Bytes :=
  rowOf? chunk.data.toArray chunk.validBytes index rowSize

/-- The chunk of at most `size` bytes, from data that was read with up to one
byte more. The additional byte is not part of the chunk; that it could be read
shows that the table goes on. -/
def ofOverread (offset : Nat) (data : Bytes) (size : Nat) : Chunk :=
  if size < data.length then
    ⟨offset, data.take size, size, some (Word.addSaturating offset size)⟩
  else ⟨offset, data, data.length, none⟩

end Chunk

end Tabular
