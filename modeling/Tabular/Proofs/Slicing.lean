import Tabular.Proofs.Scan

/-! # Rows of a chunk by index and by number

A row is found by its index through multiplication, and the rows are counted by division. Both
meet at every size: in a chunk that has the bytes it claims, exactly the indexes below the number
of whole rows are found, and their rows are all the bytes that count but for a rest too short for
a row. A place beyond what a machine word can tell is never that of a row, also if the chunk
claims more bytes than it has.
-/

namespace Tabular.Chunk

variable {chunk : Chunk} {size index : Nat}

/-- A row that ends within the bytes that count ends within a word, so that no row is lost to
the bounds of a word. -/
theorem isSome_row?_iff (hword : chunk.validBytes < Word.count) :
    (chunk.row? index size).isSome = true ↔
      0 < size ∧ (index + 1) * size ≤ min chunk.validBytes chunk.data.length := by
  rw [Option.isSome_iff_exists]
  constructor
  · rintro ⟨row, hrow⟩
    obtain ⟨⟨hsize, hinside, -⟩, -⟩ := row?_eq_some_iff.mp hrow
    exact ⟨hsize, hinside⟩
  · rintro ⟨hsize, hinside⟩
    exact ⟨_, row?_eq_some_iff.mpr ⟨⟨hsize, hinside, by omega⟩, rfl⟩⟩

/-- There are no rows of size zero to be found, and none are counted. -/
theorem isSome_row?_iff_lt_wholeRows (hvalid : chunk.validBytes ≤ chunk.data.length)
    (hword : chunk.validBytes < Word.count) :
    (chunk.row? index size).isSome = true ↔ index < chunk.wholeRows size := by
  rcases Nat.eq_zero_or_pos size with rfl | hsize
  · simp [isSome_row?_iff hword, wholeRows]
  have hcount : min (chunk.wholeRows size) (chunk.data.length / size) = chunk.wholeRows size :=
    Nat.min_eq_left (Nat.div_le_div_right hvalid)
  rw [isSome_row?_iff hword, ← lt_wholeRows_iff hsize, hcount, and_iff_right hsize]

theorem eq_extract_of_row? {row : Bytes} (hrow : chunk.row? index size = some row) :
    row = chunk.data.extract (index * size) ((index + 1) * size) := by
  obtain ⟨-, rfl⟩ := row?_eq_some_iff.mp hrow
  rw [List.extract_eq_take_drop, Nat.succ_mul, Nat.add_sub_cancel_left]

theorem length_of_row? {row : Bytes} (hrow : chunk.row? index size = some row) :
    row.length = size := by
  obtain ⟨⟨-, hinside, -⟩, rfl⟩ := row?_eq_some_iff.mp hrow
  rw [Nat.succ_mul] at hinside
  rw [List.length_take, List.length_drop]
  omega

theorem places_of_row? {row : Bytes} (hrow : chunk.row? index size = some row) :
    Word.mul? index size = some (index * size) ∧
      Word.add? (index * size) size = some ((index + 1) * size) := by
  obtain ⟨⟨-, -, hword⟩, -⟩ := row?_eq_some_iff.mp hrow
  rw [Nat.succ_mul] at hword ⊢
  exact ⟨if_pos (by omega), if_pos hword⟩

/-- The rows of a chunk are what its data starts with, also if it claims more bytes than it
has. -/
theorem flatten_rows (chunk : Chunk) (size : Nat) :
    (chunk.rows size).flatten = chunk.data.take ((chunk.rows size).length * size) := by
  rw [rows, Row.flatten_slices, Row.slices, List.length_map, List.length_range]

/-- The indexes and the number of the rows of one size agree. -/
structure SlicesExactly (chunk : Chunk) (size : Nat) : Prop where
  /-- A row is found by its index if it has bytes and its end, as a number of any size, is among
  the bytes that count and within the data. No other is. -/
  found : ∀ index, (chunk.row? index size).isSome = true ↔
    0 < size ∧ (index + 1) * size ≤ min chunk.validBytes chunk.data.length
  /-- It is the data between its start and its end, and nothing is missing there. -/
  sliced : ∀ index row, chunk.row? index size = some row →
    row = chunk.data.extract (index * size) ((index + 1) * size) ∧ row.length = size
  /-- Its start and its end are machine words. -/
  places : ∀ index row, chunk.row? index size = some row →
    Word.mul? index size = some (index * size) ∧
      Word.add? (index * size) size = some ((index + 1) * size)
  /-- Where the data has the bytes that count, these are the rows that are counted. -/
  counted : chunk.validBytes ≤ chunk.data.length → ∀ index,
    (chunk.row? index size).isSome = true ↔ index < chunk.wholeRows size
  /-- One after the other they are what the data starts with. -/
  joined : chunk.validBytes ≤ chunk.data.length → ∃ rows : List Bytes,
    chunk.lookUps size = rows.map some ∧
      rows.flatten = chunk.data.take (chunk.wholeRows size * size)
  /-- The rest of the bytes that count does not suffice for one more. -/
  left : 0 < size → ∃ rest < size, chunk.validBytes = chunk.wholeRows size * size + rest

/-- Whatever a chunk holds and claims, its rows are found and counted alike, as long as the number
of bytes that count is a machine word. -/
theorem slices_exactly (hword : chunk.validBytes < Word.count) (size : Nat) :
    chunk.SlicesExactly size := by
  constructor
  case found => exact fun index => isSome_row?_iff hword
  case sliced => exact fun index row hrow => ⟨eq_extract_of_row? hrow, length_of_row? hrow⟩
  case places => exact fun index row => places_of_row?
  case counted => exact fun hvalid index => isSome_row?_iff_lt_wholeRows hvalid hword
  case joined =>
    intro hvalid
    have hjoined := chunk.flatten_rows size
    rw [length_rows hvalid] at hjoined
    exact ⟨chunk.rows size, lookUps_eq hvalid hword, hjoined⟩
  case left =>
    intro hsize
    exact ⟨chunk.validBytes % size, Nat.mod_lt _ hsize, (Nat.div_add_mod' ..).symm⟩

/-- A chunk whose last byte does not count, and one that claims as many bytes as a word can tell.
Of the last row asked for the start would be zero again if it wrapped around, and there is a row
at zero. -/
theorem slices_exactly_overclaimed :
    let cut : Chunk := ⟨0, [1, 2, 3, 4, 5, 6, 7, 8, 9], 8, none⟩
    let claiming : Chunk := ⟨0, [1, 2, 3, 4], Word.max, none⟩
    cut.SlicesExactly 3 ∧ cut.wholeRows 3 = 2 ∧ cut.row? 1 3 = some [4, 5, 6] ∧
      cut.row? 2 3 = none ∧ claiming.SlicesExactly 4 ∧ claiming.row? 0 4 = some [1, 2, 3, 4] ∧
      2 ^ 62 * 4 % Word.count = 0 ∧ claiming.row? (2 ^ 62) 4 = none := by
  intro cut claiming
  have hcut : cut.SlicesExactly 3 := slices_exactly (by decide) 3
  have hclaiming : claiming.SlicesExactly 4 := slices_exactly (by decide) 4
  refine ⟨hcut, by decide, by decide, ?_, hclaiming, by decide, by decide, ?_⟩
  · rw [← Option.not_isSome_iff_eq_none, hcut.counted (by decide)]
    decide
  · rw [← Option.not_isSome_iff_eq_none, hclaiming.found]
    decide

end Tabular.Chunk
