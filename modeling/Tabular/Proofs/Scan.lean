import Tabular.Proofs.FirstChunk
import Tabular.Proofs.Row
import Tabular.Proofs.Tiling
import Tabular.Proofs.Validation

/-! # Scans within a chunk

Of a chunk a scan takes in the whole rows among the bytes that count, and nothing else. All of
them are there and all their places are numbers of the machine, so that only a cell whose bytes
are no text can end the scan early. What stands behind these rows never shows.
-/

namespace Tabular

/-! ## Whole rows -/

namespace Chunk

variable {chunk other : Chunk} {size : Nat}

/-- The bytes of the whole rows. -/
def whole (chunk : Chunk) (size : Nat) : Bytes :=
  chunk.data.take (chunk.wholeRows size * size)

theorem wholeRows_mul_le (chunk : Chunk) (size : Nat) :
    chunk.wholeRows size * size ≤ chunk.validBytes :=
  Nat.div_mul_le_self ..

theorem rows_eq_slices (hdata : chunk.wholeRows size ≤ chunk.data.length / size) :
    chunk.rows size = Row.slices size (chunk.wholeRows size) (chunk.whole size) := by
  rw [rows, Nat.min_eq_left hdata, whole, Row.slices_take (Nat.le_refl _)]

theorem length_rows (hvalid : chunk.validBytes ≤ chunk.data.length) :
    (chunk.rows size).length = chunk.wholeRows size := by
  rw [rows_eq_slices (Nat.div_le_div_right hvalid), Row.slices, List.length_map, List.length_range]

theorem length_of_mem_rows {row : Bytes} (hrow : row ∈ chunk.rows size) : row.length = size := by
  rw [rows, Row.slices] at hrow
  obtain ⟨index, hindex, rfl⟩ := List.mem_map.mp hrow
  have hdata := Nat.mul_le_of_le_div size _ _ (Nat.lt_min.mp (List.mem_range.mp hindex)).2
  rw [Nat.succ_mul] at hdata
  rw [List.length_take, List.length_drop]
  omega

/-- Of a chunk that has the bytes it claims every whole row is found. -/
theorem lookUps_eq (hvalid : chunk.validBytes ≤ chunk.data.length)
    (hword : chunk.validBytes < Word.count) :
    chunk.lookUps size = (chunk.rows size).map some := by
  have hlength : ((chunk.lookUps size).takeWhile Option.isSome).length =
      (chunk.lookUps size).length := by
    rw [← map_some_rows hword, List.length_map, length_rows hvalid, lookUps, List.length_map,
      List.length_range]
  rw [map_some_rows hword, (List.takeWhile_sublist _).eq_of_length hlength]

/-- The bytes of the whole rows make the rows. -/
theorem rows_congr (hvalid : chunk.validBytes ≤ chunk.data.length)
    (hcount : other.wholeRows size = chunk.wholeRows size)
    (hwhole : other.whole size = chunk.whole size) : other.rows size = chunk.rows size := by
  rcases Nat.eq_zero_or_pos size with rfl | hsize
  · simp [rows, Row.slices, wholeRows]
  have hdata : other.wholeRows size ≤ other.data.length / size := by
    have hlength := congrArg List.length hwhole
    have hinside := wholeRows_mul_le chunk size
    rw [whole, whole, hcount, List.length_take, List.length_take] at hlength
    rw [hcount, Nat.le_div_iff_mul_le hsize]
    omega
  rw [rows_eq_slices hdata, rows_eq_slices (Nat.div_le_div_right hvalid), hcount, hwhole]

end Chunk

/-! ## Reading cells -/

theorem Column.Tiles.inside {start stop : Nat} {entries : List (Column × Nat)}
    (htiles : Column.Tiles start entries stop) :
    ∀ entry ∈ entries, start ≤ entry.2 ∧ entry.2 + entry.1.type.width ≤ stop := by
  induction htiles with
  | nil => exact nofun
  | @cons column start stop rest hrest ih =>
      refine List.forall_mem_cons.mpr ⟨⟨Nat.le_refl _, hrest.le⟩, fun entry hentry => ?_⟩
      obtain ⟨hstart, hstop⟩ := ih entry hentry
      exact ⟨Nat.le_of_add_right_le hstart, hstop⟩

/-- Where the bytes suffice for a cell, it fails to be read only as a text. -/
theorem Cell.decode_eq_error {type : ColumnType} {bytes : Bytes} {e : Error}
    (hlong : type.width ≤ bytes.length) (hfails : decode type bytes = .error e) :
    ∃ width fault, type = .char width ∧
      Utf8.decode (withoutPadding (bytes.take width)) = .error fault ∧
      e = .corruption (.badText (.char width) fault) := by
  rw [decode, if_neg (Nat.not_lt.mpr hlong)] at hfails
  dsimp only at hfails
  split at hfails
  next => cases hfails
  next htext =>
    split at hfails
    next => cases hfails
    next fault hdecode =>
      cases hfails
      cases type with
      | int => exact absurd rfl htext
      | date => exact absurd rfl htext
      | char width => exact ⟨width, fault, rfl, hdecode, rfl⟩

theorem BoundColumn.inside_of_ofName {schema : Schema} {name : String} {column : BoundColumn}
    (hbound : ofName schema name = .ok column) :
    column.offset + column.type.width ≤ schema.rowSize := by
  rw [ofName] at hbound
  split at hbound
  next found offset hfound =>
    cases hbound
    obtain ⟨-, -, hlayout⟩ := Schema.column?_eq_some hfound
    exact (schema.tiles_layout.inside _ hlayout).2
  next => cases hbound

namespace Plan

variable {plan : Plan} {schema : Schema} {selection : Selection} {chunkSize : Nat} {chunk : Chunk}

theorem bound_of_ofSelection (hplan : ofSelection chunkSize schema selection = .ok plan) :
    ∀ column ∈ plan.columns, ∃ name, BoundColumn.ofName schema name = .ok column := by
  obtain ⟨-, -, hplan⟩ := Outcome.bind_eq_ok.mp hplan
  obtain ⟨projection, hprojection, hplan⟩ := Outcome.bind_eq_ok.mp hplan
  obtain ⟨filter, hfilter, hplan⟩ := Outcome.bind_eq_ok.mp hplan
  cases hplan
  intro column hcolumn
  rcases List.mem_append.mp hcolumn with hcondition | hfield
  · obtain ⟨made, hsome, rfl⟩ := Option.map_eq_some_iff.mp (Option.mem_toList.mp hcondition)
    cases hsome
    unfold filterOf at hfilter
    split at hfilter
    next => cases hfilter
    next condition =>
      obtain ⟨_, hmade, hfilter⟩ := Outcome.bind_eq_ok.mp hfilter
      cases hfilter
      obtain ⟨bound, hbound, hmade⟩ := Outcome.bind_eq_ok.mp hmade
      obtain ⟨-, -, hmade⟩ := Outcome.bind_eq_ok.mp hmade
      cases hmade
      exact ⟨_, hbound⟩
  · exact forall₂_exists_left (mapM_eq_ok_iff.mp hprojection) column hfield

/-- Of a chunk that has the bytes it claims, a scan takes in the whole rows and nothing else. -/
structure ScansWithin (plan : Plan) (chunk : Chunk) : Prop where
  /-- There are as many rows as fit into the bytes that count, and all of them are found. -/
  found : (chunk.rows plan.rowSize).length = chunk.validBytes / plan.rowSize ∧
    chunk.lookUps plan.rowSize = (chunk.rows plan.rowSize).map some
  /-- No row starts or ends beyond what a machine word can tell. -/
  places : ∀ index < chunk.validBytes / plan.rowSize,
    Word.mul? index plan.rowSize = some (index * plan.rowSize) ∧
      Word.add? (index * plan.rowSize) plan.rowSize = some ((index + 1) * plan.rowSize)
  /-- Neither do the bytes of all rows, which are among those that count, nor does their end in
  the table. -/
  consumed : chunk.validBytes / plan.rowSize * plan.rowSize ≤ chunk.validBytes ∧
    Word.mul? (chunk.validBytes / plan.rowSize) plan.rowSize =
      some (chunk.validBytes / plan.rowSize * plan.rowSize) ∧
    Word.add? chunk.offset (chunk.validBytes / plan.rowSize * plan.rowSize) =
      some (chunk.offset + chunk.validBytes / plan.rowSize * plan.rowSize)
  /-- A result comes of all rows, and the table is to be resumed behind them if it goes on. -/
  answered : ∀ result, plan.scan chunk = .ok result →
    (∀ row ∈ chunk.rows plan.rowSize, ∃ answer, plan.scanRow row = .ok answer) ∧
      result.resumeOffset = if chunk.isTruncated then
        some (chunk.offset + chunk.validBytes / plan.rowSize * plan.rowSize) else none
  /-- An error is that of the first row that has one, and it is a cell of a text whose bytes are
  no text. -/
  failed : ∀ e, plan.scan chunk = .error e → ∃ before row after,
    chunk.rows plan.rowSize = before ++ row :: after ∧
      (∀ earlier ∈ before, ∃ answer, plan.scanRow earlier = .ok answer) ∧
      plan.scanRow row = .error e ∧
      ∃ column ∈ plan.columns, ∃ width fault, column.type = .char width ∧
        Utf8.decode (Cell.withoutPadding ((row.drop column.offset).take width)) = .error fault ∧
        e = .corruption (.badText (.char width) fault)
  /-- Nothing shows but the place of the chunk, how many of its bytes count, whether the table
  goes on, and the bytes of the whole rows. -/
  determined : ∀ other : Chunk, other.offset = chunk.offset → other.validBytes = chunk.validBytes →
    other.isTruncated = chunk.isTruncated → other.whole plan.rowSize = chunk.whole plan.rowSize →
      plan.scan other = plan.scan chunk

/-- The result of a scan, by the rows among the bytes that count. -/
theorem scan_eq_rows (hword : chunk.validBytes < Word.count) :
    plan.scan chunk = ((chunk.rows plan.rowSize).filterMapM plan.scanRow).map fun rows =>
      ⟨plan.projection.map BoundColumn.name, rows, chunk.isTruncated, chunk.nextOffset.map fun _ =>
        Word.addWrapping chunk.offset (chunk.wholeRows plan.rowSize * plan.rowSize)⟩ := by
  rw [scan_eq_filterMapM, Chunk.found_eq_rows hword]

theorem scan_eq_ok (hword : chunk.validBytes < Word.count) {result : QueryResult}
    (hscan : plan.scan chunk = .ok result) :
    (∀ row ∈ chunk.rows plan.rowSize, ∃ answer, plan.scanRow row = .ok answer) ∧
      result.resumeOffset = chunk.nextOffset.map fun _ =>
        Word.addWrapping chunk.offset (chunk.wholeRows plan.rowSize * plan.rowSize) := by
  rw [scan_eq_rows hword] at hscan
  obtain ⟨rows, hrows, rfl⟩ := Outcome.map_eq_ok.mp hscan
  exact ⟨exists_filterMapM_iff.mp ⟨rows, hrows⟩, rfl⟩

theorem scan_eq_error (hword : chunk.validBytes < Word.count) {e : Error}
    (hscan : plan.scan chunk = .error e) :
    ∃ before row after, chunk.rows plan.rowSize = before ++ row :: after ∧
      (∀ earlier ∈ before, ∃ answer, plan.scanRow earlier = .ok answer) ∧
      plan.scanRow row = .error e := by
  rw [scan_eq_rows hword, Outcome.map_eq_error] at hscan
  exact filterMapM_eq_error_iff_exists.mp hscan

theorem map_nextOffset {α : Type} (chunk : Chunk) (a : α) :
    chunk.nextOffset.map (fun _ => a) = if chunk.isTruncated then some a else none := by
  rw [Chunk.isTruncated]
  cases chunk.nextOffset <;> rfl

theorem scan_congr {other : Chunk} (hvalid : chunk.validBytes ≤ chunk.data.length)
    (hword : chunk.validBytes < Word.count) (hoffset : other.offset = chunk.offset)
    (hcount : other.validBytes = chunk.validBytes)
    (htruncated : other.isTruncated = chunk.isTruncated)
    (hwhole : other.whole plan.rowSize = chunk.whole plan.rowSize) :
    plan.scan other = plan.scan chunk := by
  have hwholeRows : other.wholeRows plan.rowSize = chunk.wholeRows plan.rowSize := by
    rw [Chunk.wholeRows, Chunk.wholeRows, hcount]
  rw [scan_eq_rows hword, scan_eq_rows (hcount ▸ hword), map_nextOffset, map_nextOffset,
    Chunk.rows_congr hvalid hwholeRows hwhole, hoffset, htruncated, hwholeRows]

/-- The cells of a whole row are there as a whole. -/
theorem badText_of_scanRow (hplan : ofSelection chunkSize schema selection = .ok plan) {row : Bytes}
    (hlength : row.length = plan.rowSize) {e : Error} (hfails : plan.scanRow row = .error e) :
    ∃ column ∈ plan.columns, ∃ width fault, column.type = .char width ∧
      Utf8.decode (Cell.withoutPadding ((row.drop column.offset).take width)) = .error fault ∧
      e = .corruption (.badText (.char width) fault) := by
  obtain ⟨column, hcolumn, hread⟩ := exists_read_of_scanRow hfails
  obtain ⟨name, hbound⟩ := bound_of_ofSelection hplan column hcolumn
  have hinside := BoundColumn.inside_of_ofName hbound
  have hlong : column.type.width ≤ (row.drop column.offset).length := by
    rw [List.length_drop, hlength, (executes_of_ofSelection hplan).1.rowSize]
    omega
  exact ⟨column, hcolumn, Cell.decode_eq_error hlong hread⟩

/-- The scan of a chunk by the plan of a selection stays within the whole rows, wherever the
chunk comes from. -/
theorem scan_within (hplan : ofSelection chunkSize schema selection = .ok plan)
    (hvalid : chunk.validBytes ≤ chunk.data.length)
    (hword : chunk.offset + chunk.validBytes < Word.count) :
    plan.rowSize = schema.rowSize ∧ plan.ScansWithin chunk := by
  have hstop := chunk.wholeRows_mul_le plan.rowSize
  have hcounted : chunk.validBytes < Word.count := Nat.lt_of_add_left_lt hword
  refine ⟨(executes_of_ofSelection hplan).1.rowSize, ?_⟩
  constructor
  case found => exact ⟨Chunk.length_rows hvalid, Chunk.lookUps_eq hvalid hcounted⟩
  case places =>
    intro index hindex
    have hinside : (index + 1) * plan.rowSize ≤ chunk.validBytes :=
      Nat.mul_le_of_le_div plan.rowSize _ _ hindex
    rw [Nat.succ_mul] at hinside ⊢
    exact ⟨if_pos (by omega), if_pos (by omega)⟩
  case consumed =>
    have hplace : chunk.offset + chunk.wholeRows plan.rowSize * plan.rowSize < Word.count :=
      Nat.lt_of_le_of_lt (Nat.add_le_add_left hstop _) hword
    exact ⟨hstop, if_pos (Nat.lt_of_le_of_lt (Nat.le_add_left ..) hplace), if_pos hplace⟩
  case answered =>
    intro result hscan
    obtain ⟨hrows, hoffset⟩ := scan_eq_ok hcounted hscan
    have hresume : Word.addWrapping chunk.offset (chunk.wholeRows plan.rowSize * plan.rowSize) =
        chunk.offset + chunk.wholeRows plan.rowSize * plan.rowSize := Nat.mod_eq_of_lt (by omega)
    rw [hresume, map_nextOffset] at hoffset
    exact ⟨hrows, hoffset⟩
  case failed =>
    intro e hscan
    obtain ⟨before, row, after, hrows, hbefore, hrow⟩ := scan_eq_error hcounted hscan
    have hmem : row ∈ chunk.rows plan.rowSize := by
      rw [hrows]
      exact List.mem_append_right before List.mem_cons_self
    exact ⟨before, row, after, hrows, hbefore, hrow,
      badText_of_scanRow hplan (Chunk.length_of_mem_rows hmem) hrow⟩
  case determined => exact fun other => scan_congr hvalid hcounted

/-- A chunk that ends inside a row. The row of the bad label is an error only where the label is
asked for, and what stands behind the second row never shows. -/
theorem scan_within_labels :
    let chunk : Chunk := ⟨5, labelBytes, 13, some 0⟩
    ∃ narrow wide, ofSelection 13 labelTable labelSelection = .ok narrow ∧
      ofSelection 13 labelTable ⟨.named ["text"], "Label", none⟩ = .ok wide ∧
      narrow.ScansWithin chunk ∧ wide.ScansWithin chunk ∧
      narrow.scan chunk = .ok ⟨["id", "text"], [⟨[("id", .integer 2), ("text", .text "A")]⟩], true,
        some 17⟩ ∧
      narrow.scan ⟨5, labelBytes.take 12 ++ [0xFF], 13, some 99⟩ = narrow.scan chunk ∧
      wide.scan chunk = .error (.corruption (.badText (.char 2) ⟨0, some 1⟩)) := by
  intro chunk
  have hvalid : chunk.validBytes ≤ chunk.data.length := by decide
  have hword : chunk.offset + chunk.validBytes < Word.count := by decide
  have hnarrow : ofSelection 13 labelTable labelSelection =
      .ok ⟨[⟨"id", .int, 0⟩, ⟨"text", .char 2, 4⟩],
        some ⟨⟨"id", .equal, .integer 2⟩, ⟨"id", .int, 0⟩⟩, 6⟩ := by decide
  have hwide : ofSelection 13 labelTable ⟨.named ["text"], "Label", none⟩ =
      .ok ⟨[⟨"text", .char 2, 4⟩], none, 6⟩ := by decide
  have hwithin := (scan_within hnarrow hvalid hword).2
  exact ⟨_, _, hnarrow, hwide, hwithin, (scan_within hwide hvalid hword).2, by decide +kernel,
    hwithin.determined ⟨5, labelBytes.take 12 ++ [0xFF], 13, some 99⟩ rfl rfl rfl (by decide),
    by decide +kernel⟩

end Plan

end Tabular
