import Mathlib.Data.List.Basic
import Mathlib.Data.List.ReduceOption
import Tabular.Chunk

/-! # Chunks of a content

A chunk of some content is the bytes between two places of it, and it says where
the content goes on. Reading one byte more than asked for yields exactly this
chunk. Of the chunk at the start of a table the rows are the first rows of the
table.
-/

namespace Tabular

namespace Row

/-- As many rows as asked for of those that some content starts with. -/
def slices (size count : Nat) (content : Bytes) : List Bytes :=
  (List.range count).map fun i => (content.drop (i * size)).take size

theorem slices_add (size first second : Nat) (content : Bytes) :
    slices size (first + second) content =
      slices size first content ++ slices size second (content.drop (first * size)) := by
  rw [slices, List.range_add, List.map_append, List.map_map]
  congr 1
  apply List.map_congr_left
  intro i _
  rw [Function.comp_apply, List.drop_drop, Nat.add_mul]

theorem slices_one (size : Nat) (content : Bytes) :
    slices size 1 content = [content.take size] := by
  simp [slices]

/-- The rows together are what the content starts with, up to the end of the last one, or all of
it if it is shorter. -/
theorem flatten_slices (size count : Nat) (content : Bytes) :
    (slices size count content).flatten = content.take (count * size) := by
  induction count with
  | zero => simp [slices]
  | succ count ih =>
      rw [slices_add, slices_one, List.flatten_append, ih, List.flatten_singleton, Nat.succ_mul,
        List.take_add]

/-- Rows do not depend on what follows them. -/
theorem slices_take {size count limit : Nat} (hlimit : count * size ≤ limit) (content : Bytes) :
    slices size count (content.take limit) = slices size count content := by
  apply List.map_congr_left
  intro i hi
  have hrow : (i + 1) * size ≤ count * size := Nat.mul_le_mul_right size (List.mem_range.mp hi)
  rw [Nat.succ_mul] at hrow
  rw [List.drop_take, List.take_take, Nat.min_eq_left (by omega)]

/-- Rows that were put one after the other are found again. -/
theorem slices_flatten {size count : Nat} {rows : List Bytes} (hrows : ∀ row ∈ rows, row.length = size)
    (hcount : count ≤ rows.length) : slices size count rows.flatten = rows.take count := by
  induction rows generalizing count with
  | nil =>
      rw [Nat.le_zero.mp hcount]
      rfl
  | cons row rest ih =>
      obtain ⟨hrow, hrest⟩ := List.forall_mem_cons.mp hrows
      cases count with
      | zero => rfl
      | succ count =>
          have hfirst : slices size 1 (row ++ rest.flatten) = [row] := by
            rw [slices_one, List.take_left' hrow]
          rw [List.flatten_cons, Nat.add_comm, slices_add, hfirst, Nat.one_mul,
            List.drop_left' hrow, ih hrest (Nat.le_of_succ_le_succ hcount), Nat.add_comm,
            List.take_succ_cons, List.singleton_append]

end Row

theorem takeWhile_range {p : Nat → Bool} {count limit : Nat} (hle : count ≤ limit)
    (hbelow : ∀ i < count, p i = true) (hend : p count = false) :
    (List.range limit).takeWhile p = List.range count := by
  obtain ⟨rest, rfl⟩ := Nat.exists_eq_add_of_le hle
  rw [List.range_add, List.takeWhile_append_of_pos fun i hi => hbelow i (List.mem_range.mp hi)]
  cases rest with
  | zero => simp
  | succ rest => simp [List.range_succ_eq_map, hend]

attribute [ext] Chunk

namespace Chunk

/-! ## Looking up rows -/

section

variable {chunk : Chunk} {size : Nat}

/-- A row is found if it has bytes and ends within the bytes that count, within the data, and
within a word. -/
theorem row?_eq_some_iff {index : Nat} {row : Bytes} :
    chunk.row? index size = some row ↔
      (0 < size ∧ (index + 1) * size ≤ min chunk.validBytes chunk.data.length ∧
        (index + 1) * size < Word.count) ∧ (chunk.data.drop (index * size)).take size = row := by
  simp only [row?, rowOf?, Word.mul?, Word.add?, Option.bind_eq_bind, Option.bind_eq_some_iff,
    Option.ite_none_right_eq_some, Option.some.injEq, Option.ite_none_left_eq_some, Nat.succ_mul,
    Array.toList_extract, List.size_toArray, List.extract_eq_take_drop]
  constructor
  · rintro ⟨_, ⟨hstart, rfl⟩, _, ⟨hstop, rfl⟩, hinside, hrow⟩
    rw [Nat.add_sub_cancel_left] at hrow
    exact ⟨by omega, hrow⟩
  · rintro ⟨hinside, hrow⟩
    refine ⟨_, ⟨by omega, rfl⟩, _, ⟨by omega, rfl⟩, by omega, ?_⟩
    rw [Nat.add_sub_cancel_left, hrow]

/-- What is found by the indexes of the whole rows, in their order. -/
def lookUps (chunk : Chunk) (size : Nat) : List (Option Bytes) :=
  (List.range (chunk.wholeRows size)).map fun index => chunk.row? index size

/-- The rows among the bytes that count, of a chunk that may claim more bytes than it has. -/
def rows (chunk : Chunk) (size : Nat) : List Bytes :=
  Row.slices size (min (chunk.wholeRows size) (chunk.data.length / size)) chunk.data

theorem lt_wholeRows_iff (hsize : 0 < size) {index : Nat} :
    index < min (chunk.wholeRows size) (chunk.data.length / size) ↔
      (index + 1) * size ≤ min chunk.validBytes chunk.data.length := by
  rw [wholeRows, Nat.lt_min, Nat.le_min, ← Nat.le_div_iff_mul_le hsize,
    ← Nat.le_div_iff_mul_le hsize, Nat.succ_le_iff, Nat.succ_le_iff]

/-- The rows of a chunk are what is found up to the first index without a row. The chunk may
claim more bytes than it has. -/
theorem map_some_rows (hword : chunk.validBytes < Word.count) :
    (chunk.rows size).map some = (chunk.lookUps size).takeWhile Option.isSome := by
  rcases Nat.eq_zero_or_pos size with rfl | hsize
  · simp [rows, Row.slices, lookUps, wholeRows]
  have hfound : ∀ index < min (chunk.wholeRows size) (chunk.data.length / size),
      chunk.row? index size = some ((chunk.data.drop (index * size)).take size) := by
    intro index hindex
    have hinside := (lt_wholeRows_iff hsize).mp hindex
    exact row?_eq_some_iff.mpr ⟨⟨hsize, hinside, by omega⟩, rfl⟩
  have hmissing :
      chunk.row? (min (chunk.wholeRows size) (chunk.data.length / size)) size = none := by
    rw [Option.eq_none_iff_forall_ne_some]
    intro row hrow
    obtain ⟨⟨-, hinside, -⟩, -⟩ := row?_eq_some_iff.mp hrow
    exact Nat.lt_irrefl _ ((lt_wholeRows_iff hsize).mpr hinside)
  rw [lookUps, List.takeWhile_map, takeWhile_range (Nat.min_le_left _ (chunk.data.length / size)),
    rows, Row.slices, List.map_map]
  · apply List.map_congr_left
    intro index hindex
    exact (hfound index (List.mem_range.mp hindex)).symm
  · intro index hindex
    rw [Function.comp_apply, hfound index hindex]
    rfl
  · rw [Function.comp_apply, hmissing]
    rfl

/-- The rows that are found before the first index without a row. -/
def found (chunk : Chunk) (size : Nat) : List Bytes :=
  ((chunk.lookUps size).takeWhile Option.isSome).reduceOption

theorem found_eq_rows (hword : chunk.validBytes < Word.count) :
    chunk.found size = chunk.rows size := by
  rw [found, ← map_some_rows hword, List.reduceOption, List.filterMap_map]
  exact List.filterMap_some

end

/-! ## Chunks read from a content -/

/-- The chunk that some content holds between an offset and a number of bytes
behind it. -/
def ofContent (content : Bytes) (offset size : Nat) : Chunk where
  offset := offset
  data := content.extract (min offset content.length) (min (offset + size) content.length)
  validBytes := min (offset + size) content.length - min offset content.length
  nextOffset := if offset + size < content.length then some (offset + size) else none

variable {content : Bytes} {offset size : Nat}

theorem ofContent_data :
    (ofContent content offset size).data = (content.drop offset).take size := by
  rw [ofContent, List.extract_eq_take_drop]
  rcases Nat.le_total content.length offset with hpast | hin
  · rw [Nat.min_eq_right hpast, List.drop_length, List.drop_eq_nil_of_le hpast]
    simp
  · rw [Nat.min_eq_left hin, List.take_eq_take_iff, List.length_drop]
    omega

theorem ofContent_validBytes :
    (ofContent content offset size).validBytes = min size (content.length - offset) := by
  change min (offset + size) content.length - min offset content.length = _
  omega

theorem ofContent_isTruncated :
    (ofContent content offset size).isTruncated = true ↔ offset + size < content.length := by
  rw [isTruncated, ofContent]
  split <;> simp_all

theorem ofContent_nextOffset_eq_some {next : Nat} :
    (ofContent content offset size).nextOffset = some next ↔
      offset + size < content.length ∧ offset + size = next := by
  rw [ofContent]
  split
  next hmore => simp [hmore]
  next hend => simp [hend]

theorem ofContent_nextOffset_eq_none :
    (ofContent content offset size).nextOffset = none ↔ content.length ≤ offset + size := by
  rw [ofContent]
  split
  · simp only [reduceCtorEq, false_iff]
    omega
  · simp only [true_iff]
    omega

/-- Reading with more than `size` bytes, or up to the end, yields the chunk of
`size` bytes. What lies behind it must be within a word. -/
theorem ofOverread_eq_ofContent {limit : Nat}
    (hlimit : size < limit ∨ content.length ≤ offset + limit)
    (hword : offset + size < content.length → offset + size ≤ Word.max) :
    ofOverread offset ((content.drop offset).take limit) size = ofContent content offset size := by
  have hlength : ((content.drop offset).take limit).length =
      min limit (content.length - offset) := by
    rw [List.length_take, List.length_drop]
  rw [ofOverread, hlength]
  split
  next hmore =>
    have hnext : offset + size < content.length := by omega
    have hsum : Word.addSaturating offset size = offset + size :=
      Nat.min_eq_left (hword hnext)
    apply Chunk.ext
    · rfl
    · rw [ofContent_data, List.take_take, Nat.min_eq_left (by omega)]
    · rw [ofContent_validBytes]
      change size = _
      omega
    · rw [hsum, ofContent, if_pos hnext]
  next hend =>
    have hnext : ¬ offset + size < content.length := by omega
    apply Chunk.ext
    · rfl
    · rw [ofContent_data, List.take_eq_take_iff, List.length_drop]
      omega
    · rw [ofContent_validBytes]
      change min limit (content.length - offset) = _
      omega
    · rw [ofContent, if_neg hnext]

/-- The rows of the chunk at the start of a table are the first rows of the
table. -/
theorem rows_ofContent (rowSize : Nat) :
    (ofContent content 0 size).rows rowSize =
      Row.slices rowSize (min content.length size / rowSize) content := by
  have hlength : ((content.drop 0).take size).length = min content.length size := by
    rw [List.drop_zero, List.length_take, Nat.min_comm]
  rw [rows, wholeRows, ofContent_validBytes, ofContent_data, hlength, Nat.sub_zero, Nat.min_comm,
    Nat.min_comm size, Nat.min_self, List.drop_zero]
  apply Row.slices_take
  calc
    min content.length size / rowSize * rowSize ≤ min content.length size :=
      Nat.div_mul_le_self _ _
    _ ≤ size := Nat.min_le_right _ _

end Chunk

end Tabular
