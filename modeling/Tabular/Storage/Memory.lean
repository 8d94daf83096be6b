import Tabular.Storage

/-! # Tables in memory

A storage that keeps the content of each table under its name. A handle is the
content at the time of opening: what is appended later does not show in it.
-/

namespace Tabular

/-- The contents of the tables that exist. -/
structure Memory where
  content? : String → Option Bytes

namespace Memory

def empty : Memory := ⟨fun _ => none⟩

def put (memory : Memory) (table : String) (content : Bytes) : Memory :=
  ⟨fun name => if name = table then some content else memory.content? name⟩

/-- Adds a row at the end of a table, which is empty if it does not exist. -/
def appendRow (memory : Memory) (table : String) (row : Bytes) : Memory :=
  memory.put table ((memory.content? table).getD [] ++ row)

/-- The chunk of at most `size` bytes that some content holds from `offset` on. -/
def chunkOf (content : Bytes) (offset size : Nat) : Chunk :=
  let start := min offset content.length
  let stop := min (Word.addSaturating (Word.addSaturating start size) 1) content.length
  Chunk.ofOverread offset ((content.drop start).take (stop - start)) size

/-- The tables in memory as a storage. Its handles are contents. -/
def storage : Storage (StateM Memory) Bytes where
  openTable table := do
    match (← get).content? table with
    | some content => return .ok content
    | none => return .error (.fileNotFound table)
  readChunk content offset size := return .ok (chunkOf content offset size)
  closeTable _ := return .ok ()

end Memory

end Tabular
