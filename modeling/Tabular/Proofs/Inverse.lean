import Tabular.Proofs.Decoding
import Tabular.Proofs.Row
import Tabular.Proofs.Tiling
import Tabular.Proofs.Verdict

/-! # Rows there and back

What is read of a written row is the normal form of what was given for its columns, whatever
follows the row and whichever columns are asked for. And what is read of any row that can be
read at all is written as the bytes that it was read from: a cell has no other value, and a
value has no other cell.
-/

namespace Tabular

namespace Cell

/-! ## Normal forms -/

section NormalForm

variable {width : Nat} {kept dropped others rest : List Char}

theorem length_encode_append (first second : List Char) :
    (Utf8.encode (String.ofList (first ++ second))).length =
      (Utf8.encode (String.ofList first)).length + (Utf8.encode (String.ofList second)).length := by
  simp only [Utf8.encode_ofList, List.flatMap_append, List.length_append]

/-- No beginning of a text that fits is longer than one with which the next character does
not fit any more. -/
theorem length_le_of_longest (hsame : kept ++ dropped = others ++ rest)
    (hfits : (Utf8.encode (String.ofList others)).length ≤ width)
    (hlongest : ∀ next more, dropped = next :: more →
      width < (Utf8.encode (String.ofList (kept ++ [next]))).length) :
    others.length ≤ kept.length := by
  rcases List.append_eq_append_iff.mp hsame with ⟨more, rfl, hdropped⟩ | ⟨more, rfl, -⟩
  · cases more with
    | nil => rw [List.append_nil]
    | cons next more =>
        have hnext := hlongest next (more ++ rest) hdropped
        rw [List.append_cons, length_encode_append] at hfits
        omega
  · rw [List.length_append]
    exact Nat.le_add_right ..

/-- A value has one normal form. -/
theorem NormalForm.unique {type : ColumnType} {given stored other : Value}
    (hstored : NormalForm type given stored) (hother : NormalForm type given other) :
    stored = other := by
  cases hstored with
  | integer htype n =>
      cases hother with
      | integer => rfl
  | text hgiven hfits hlongest =>
      cases hother with
      | text hgiven' hfits' hlongest' =>
          have hsame := hgiven.symm.trans hgiven'
          have hlength := Nat.le_antisymm (length_le_of_longest hsame.symm hfits hlongest')
            (length_le_of_longest hsame hfits' hlongest)
          rw [(List.append_inj hsame hlength).1]

/-- A text that fits and does not end in a zero character is its own normal form. -/
theorem normalForm_of_fits {s : String} (hfits : (Utf8.encode s).length ≤ width)
    (hend : s.toList.getLast? ≠ some '\x00') :
    NormalForm (.char width) (.text s) (.text s) := by
  have hkept : s.toList.rdropWhile (fun c => c = '\x00') = s.toList := by
    rw [List.rdropWhile_eq_self_iff]
    intro hsome hzero
    rw [List.getLast?_eq_some_getLast hsome] at hend
    exact hend (congrArg some (of_decide_eq_true hzero))
  have hnormal : NormalForm (.char width) (.text s)
      (.text (String.ofList (s.toList.rdropWhile fun c => c = '\x00'))) := by
    refine .text (List.append_nil _).symm ?_ nofun
    rwa [String.ofList_toList]
  rwa [hkept, String.ofList_toList] at hnormal

end NormalForm

/-! ## Cells -/

section Cells

variable {type : ColumnType} {value : Value} {bytes : Bytes}

/-- What follows a cell makes no difference to it. -/
theorem decode_append (hread : decode type bytes = .ok value) (rest : Bytes) :
    decode type (bytes ++ rest) = .ok value := by
  rw [decode] at hread ⊢
  split at hread
  next => cases hread
  next hlong =>
    have hlong' : ¬(bytes ++ rest).length < type.width := by
      rw [List.length_append]
      omega
    rw [if_neg hlong', List.take_append_of_le_length (Nat.le_of_not_lt hlong)]
    exact hread

theorem writeInt_readInt (a b c d : UInt8) : writeInt (readInt [a, b, c, d]) = [a, b, c, d] := by
  have ha := a.toNat_lt
  have hb := b.toNat_lt
  have hc := c.toNat_lt
  have hd := d.toNat_lt
  obtain ⟨word, hword⟩ : ∃ word, word =
      a.toNat + 256 * (b.toNat + 256 * (c.toNat + 256 * d.toNat)) := ⟨_, rfl⟩
  have hread : (readInt [a, b, c, d] % 0x100000000).toNat = word := by
    simp only [readInt, List.foldr_cons, List.foldr_nil, Int.bmod_def]
    omega
  simp only [writeInt, hread]
  rw [Utf8.ofNat_eq_of_mod a (by omega), Utf8.ofNat_eq_of_mod b (by omega),
    Utf8.ofNat_eq_of_mod c (by omega), Utf8.ofNat_eq_of_mod d (by omega)]

/-- Four bytes are read as a 32-bit number. -/
theorem readInt_bounds (bytes : Bytes) :
    -0x80000000 ≤ readInt bytes ∧ readInt bytes < 0x80000000 :=
  ⟨Int.le_bmod (by decide), Int.bmod_lt (by decide)⟩

theorem exists_padding (cell : Bytes) :
    ∃ count, withoutPadding cell ++ List.replicate count 0 = cell := by
  induction cell using List.reverseRecOn with
  | nil => exact ⟨0, rfl⟩
  | append_singleton init last ih =>
      by_cases hlast : last = 0
      · obtain ⟨count, hinit⟩ := ih
        refine ⟨count + 1, ?_⟩
        rw [hlast, withoutPadding_concat_zero, List.replicate_succ', ← List.append_assoc, hinit]
      · refine ⟨0, ?_⟩
        rw [withoutPadding_concat hlast, List.replicate_zero, List.append_nil]

/-- Without the zero bytes at its end and filled up with zero bytes again, a cell is the same. -/
theorem padded_withoutPadding (cell : Bytes) : padded cell.length (withoutPadding cell) = cell := by
  obtain ⟨count, hcell⟩ := exists_padding cell
  have hcount : cell.length - (withoutPadding cell).length = count := by
    have hlength := congrArg List.length hcell
    rw [List.length_append, List.length_replicate] at hlength
    omega
  rw [padded, hcount, hcell]

/-- All of a text is kept if it fits. -/
theorem fitting_eq_self {width : Nat} {chars : List Char}
    (hfits : (Utf8.encode (String.ofList chars)).length ≤ width) : fitting width chars = chars := by
  obtain ⟨dropped, hchars, -, hlongest⟩ := fitting_longest width chars
  have hsame : fitting width chars ++ dropped = chars ++ [] := by rw [List.append_nil, ← hchars]
  have hleast := length_le_of_longest hsame hfits hlongest
  have hlength : (fitting width chars).length = chars.length := by
    have htotal := congrArg List.length hchars
    rw [List.length_append] at htotal
    omega
  exact (List.append_inj hsame hlength).1

theorem encode_readInt {column : String} (htype : type.isInteger = true) (a b c d : UInt8) :
    encode column type (.integer (Int64.ofInt (readInt [a, b, c, d]))) = .ok [a, b, c, d] := by
  obtain ⟨hlow, hhigh⟩ := readInt_bounds [a, b, c, d]
  have hvalue : (Int64.ofInt (readInt [a, b, c, d])).toInt = readInt [a, b, c, d] :=
    Int64.toInt_ofInt_of_le (by omega) (by omega)
  rw [encode_integer htype, hvalue, if_pos ⟨hlow, hhigh⟩, writeInt_readInt]

theorem encode_text {column : String} {width : Nat} {cell : Bytes} {text : String}
    (hlength : cell.length = width) (hcell : Utf8.encode text = withoutPadding cell) :
    encode column (.char width) (.text text) = .ok cell := by
  have hfits : (Utf8.encode (String.ofList text.toList)).length ≤ width := by
    obtain ⟨count, hpadding⟩ := exists_padding cell
    rw [String.ofList_toList, hcell, ← hlength]
    conv_rhs => rw [← hpadding, List.length_append]
    exact Nat.le_add_right ..
  rw [encode, fitting_eq_self hfits, String.ofList_toList, hcell, ← hlength,
    padded_withoutPadding]

/-- A cell is read as a number, or as the text that its bytes encode up to the padding. -/
theorem decode_eq_ok (hread : decode type bytes = .ok value) :
    type.width ≤ bytes.length ∧
      ((type.isInteger = true ∧ value = .integer (Int64.ofInt (readInt (bytes.take type.width)))) ∨
        ∃ width text, type = .char width ∧ value = .text text ∧
          Utf8.encode text = withoutPadding (bytes.take type.width)) := by
  rw [decode] at hread
  split at hread
  next => cases hread
  next hlong =>
    refine ⟨Nat.le_of_not_lt hlong, ?_⟩
    dsimp only at hread
    split at hread
    next htype =>
      cases hread
      exact .inl ⟨htype, rfl⟩
    next htext =>
      split at hread
      next text hdecode =>
        cases hread
        cases type with
        | int => exact absurd rfl htext
        | date => exact absurd rfl htext
        | char width => exact .inr ⟨width, text, rfl, rfl, Utf8.decode_eq_ok.mp hdecode⟩
      next => cases hread

/-- The value of a cell is written as the cell. -/
theorem encode_of_decode (hread : decode type bytes = .ok value) (column : String) :
    encode column type value = .ok (bytes.take type.width) := by
  obtain ⟨hlong, hvalue⟩ := decode_eq_ok hread
  have hlength : (bytes.take type.width).length = type.width := by
    rw [List.length_take]
    omega
  rcases hvalue with ⟨htype, rfl⟩ | ⟨width, text, rfl, rfl, hencode⟩
  · generalize bytes.take type.width = cell at hlength ⊢
    rw [width_of_isInteger htype] at hlength
    obtain ⟨a, b, c, d, rfl⟩ := List.length_eq_four.mp hlength
    exact encode_readInt htype a b c d
  · exact encode_text hlength hencode

end Cells

end Cell

namespace Row

variable {schema : Schema} {values : List (String × Value)} {row : Bytes} {names : List String}
  {record : Record}

/-! ## Reading some columns of a row -/

theorem decodeColumn_append {name : String} {value : Value}
    (hread : decodeColumn schema row name = .ok value) (rest : Bytes) :
    decodeColumn schema (row ++ rest) name = .ok value := by
  rw [decodeColumn] at hread ⊢
  split at hread
  next column offset hfound =>
    rw [List.drop_append]
    exact Cell.decode_append hread _
  next => cases hread

/-- Only the names of columns can be read. -/
theorem mem_columnNames_of_decodeColumn {name : String} {value : Value}
    (hread : decodeColumn schema row name = .ok value) : name ∈ schema.columnNames := by
  rw [decodeColumn] at hread
  split at hread
  next column offset hfound => exact Schema.exists_column?_iff.mp ⟨_, hfound⟩
  next => cases hread

/-- A record has fields for columns only. -/
theorem mem_columnNames_of_decode (hdecode : decode schema row names = .ok record) :
    ∀ entry ∈ record.fields, entry.1 ∈ schema.columnNames := fun entry hentry =>
  mem_columnNames_of_decodeColumn ((decode_eq_ok hdecode).2 entry hentry)

theorem nodup_names_of_decode (hdecode : decode schema row names = .ok record) :
    record.names.Nodup := by
  rw [(decode_eq_ok hdecode).1]
  exact (Fields.nodup_distinct names).1

/-- A record holds the value of every column that was asked for. -/
theorem get?_of_decode (hdecode : decode schema row names = .ok record) {name : String}
    (hname : name ∈ names) :
    ∃ value, record.get? name = some value ∧ decodeColumn schema row name = .ok value := by
  obtain ⟨hnames, hvalues⟩ := decode_eq_ok hdecode
  have hmem : name ∈ record.names := by
    rw [hnames]
    exact ((Fields.nodup_distinct names).2 name).mpr hname
  obtain ⟨⟨name, value⟩, hentry, rfl⟩ := List.mem_map.mp hmem
  exact ⟨value, Record.get?_of_mem (nodup_names_of_decode hdecode) hentry, hvalues _ hentry⟩

/-! ## Reading what was written -/

/-- The columns of a written row are read as the normal forms of the first values given for
them, whatever follows the row. -/
theorem decodeColumn_written (hencode : encode schema values = .ok row) (rest : Bytes)
    {column : Column} (hcolumn : column ∈ schema.columns) :
    ∃ given stored, values.lookup column.name = some given ∧
      decodeColumn schema (row ++ rest) column.name = .ok stored ∧
        Cell.NormalForm column.type given stored := by
  obtain ⟨given, stored, hgiven, hread, hnormal⟩ := decodeColumn_of_encode hencode hcolumn
  exact ⟨given, stored, hgiven, decodeColumn_append hread rest, hnormal⟩

theorem exists_decodeColumn_written (hencode : encode schema values = .ok row) (rest : Bytes)
    {name : String} (hname : name ∈ schema.columnNames) :
    ∃ value, decodeColumn schema (row ++ rest) name = .ok value := by
  obtain ⟨column, hcolumn, rfl⟩ := List.mem_map.mp hname
  obtain ⟨-, stored, -, hread, -⟩ := decodeColumn_written hencode rest hcolumn
  exact ⟨stored, hread⟩

/-- A written row has the size of a row of the schema. No column fails to be read from it, be it
for bytes that are no text or for any other cause. Whatever follows the row, any columns are
read together, and each of them is the normal form of the first value given for it. That is the
value itself if it is a text that fits and does not end in a zero character. -/
theorem decode_written (hencode : encode schema values = .ok row) :
    row.length = schema.rowSize ∧
    (∀ rest, ∀ name ∈ schema.columnNames,
      ∃ value, decodeColumn schema (row ++ rest) name = .ok value) ∧
    ∀ rest names, (∀ name ∈ names, name ∈ schema.columnNames) →
      ∃ record, decode schema (row ++ rest) names = .ok record ∧
        record.names = Fields.distinct names ∧
        ∀ column ∈ schema.columns, column.name ∈ names → ∃ given stored,
          values.lookup column.name = some given ∧ record.get? column.name = some stored ∧
          Cell.NormalForm column.type given stored ∧
          ∀ width s, column.type = .char width → given = .text s →
            (Utf8.encode s).length ≤ width → s.toList.getLast? ≠ some '\x00' → stored = .text s := by
  refine ⟨length_of_encode hencode, fun rest name hname =>
    exists_decodeColumn_written hencode rest hname, fun rest names hnames => ?_⟩
  obtain ⟨record, hdecode⟩ := exists_decode fun name hname =>
    exists_decodeColumn_written hencode rest (hnames name hname)
  refine ⟨record, hdecode, (decode_eq_ok hdecode).1, fun column hcolumn hname => ?_⟩
  obtain ⟨given, stored, hgiven, hread, hnormal⟩ := decodeColumn_written hencode rest hcolumn
  obtain ⟨value, hvalue, hsame⟩ := get?_of_decode hdecode hname
  cases hread.symm.trans hsame
  refine ⟨given, stored, hgiven, hvalue, hnormal, ?_⟩
  rintro width s htype rfl hfits hend
  rw [htype] at hnormal
  exact hnormal.unique (Cell.normalForm_of_fits hfits hend)

/-- A name that is cut before its last character ends in a zero character then. -/
theorem decode_written_people :
    let row : Bytes := [7, 0, 0, 0, 0x61, 0xC3, 0xB1, 0, 0xFF, 0xFF, 0xFF, 0xFF]
    encode personTable [("name", .text "añ\x00é"), ("born", .integer (-1)), ("id", .integer 7),
        ("name", .integer 0)] = .ok row ∧
      row.length = personTable.rowSize ∧
      ∃ record stored, decode personTable (row ++ [1, 2]) ["born", "name", "born"] = .ok record ∧
        record.names = ["born", "name"] ∧ record.get? "name" = some stored ∧
        Cell.NormalForm (.char 4) (.text "añ\x00é") stored := by
  intro row
  have hencode : encode personTable [("name", .text "añ\x00é"), ("born", .integer (-1)),
      ("id", .integer 7), ("name", .integer 0)] = .ok row := by decide +kernel
  obtain ⟨hlength, -, hread⟩ := decode_written hencode
  obtain ⟨record, hdecode, hnames, hvalues⟩ := hread [1, 2] ["born", "name", "born"] (by decide)
  obtain ⟨given, stored, hgiven, hget, hnormal, -⟩ :=
    hvalues ⟨"name", .char 4⟩ (by decide) (by decide)
  cases hgiven
  exact ⟨hencode, hlength, record, stored, hdecode, hnames, hget, hnormal⟩

/-! ## Writing what was read -/

/-- Every cell of a row is written as it was read. -/
theorem cellFor_of_decode (hall : ∀ name ∈ schema.columnNames, name ∈ names)
    (hdecode : decode schema row names = .ok record) {entry : Column × Nat}
    (hentry : entry ∈ schema.layout) :
    cellFor record.fields entry.1 = .ok ((row.drop entry.2).take entry.1.type.width) := by
  have hcolumn : entry.1.name ∈ schema.columnNames := by
    rw [← Schema.layout_map_name]
    exact List.mem_map_of_mem hentry
  obtain ⟨value, hvalue, hread⟩ := get?_of_decode hdecode (hall _ hcolumn)
  have hfor : valueFor? record.fields entry.1.name = some value := hvalue
  rw [decodeColumn, Schema.column?_of_mem_layout hentry] at hread
  rw [cellFor, hfor]
  exact Cell.encode_of_decode hread entry.1.name

theorem encode_of_decode (hlength : row.length = schema.rowSize)
    (hall : ∀ name ∈ schema.columnNames, name ∈ names)
    (hdecode : decode schema row names = .ok record) :
    encode schema record.fields = .ok row := by
  have hcells : schema.columns.mapM (cellFor record.fields) =
      .ok (schema.layout.map fun entry => (row.drop entry.2).take entry.1.type.width) := by
    rw [mapM_eq_ok_iff, ← schema.layout_map_fst, List.forall₂_map_left_iff,
      List.forall₂_map_right_iff, List.forall₂_same]
    exact fun entry hentry => cellFor_of_decode hall hdecode hentry
  rw [encode_of_known (mem_columnNames_of_decode hdecode), hcells, Except.map,
    schema.tiles_layout.flatten_cells row, List.drop_zero, Nat.sub_zero, ← hlength,
    List.take_length]

/-- What is read of all columns of a row is written as the row, in whatever order the values are
given. So no two rows are read as the same record. -/
theorem encode_restores (hlength : row.length = schema.rowSize)
    (hall : ∀ name ∈ schema.columnNames, name ∈ names)
    (hdecode : decode schema row names = .ok record) :
    (∀ pairs, pairs.Perm record.fields → encode schema pairs = .ok row) ∧
      ∀ other, other.length = schema.rowSize → decode schema other names = .ok record →
        other = row := by
  have hencode := encode_of_decode hlength hall hdecode
  constructor
  · intro pairs hperm
    rw [encode_perm (mem_columnNames_of_decode hdecode) (nodup_names_of_decode hdecode) hperm,
      hencode]
  · intro other hother hsame
    have hencode' := encode_of_decode hother hall hsame
    rw [hencode] at hencode'
    cases hencode'
    rfl

/-- Close to the least id, a name with a zero character in front, and the last of all days. -/
theorem encode_restores_people :
    let row : Bytes := [7, 0, 0, 0x80, 0, 0x62, 0, 0, 0xFF, 0xFF, 0xFF, 0x7F]
    let record : Record := ⟨[("name", .text "\x00b"), ("id", .integer (-2147483641)),
      ("born", .integer 2147483647)]⟩
    row.length = personTable.rowSize ∧
      decode personTable row ["name", "id", "born"] = .ok record ∧
      encode personTable [("id", .integer (-2147483641)), ("name", .text "\x00b"),
        ("born", .integer 2147483647)] = .ok row ∧
      ∀ other, other.length = personTable.rowSize →
        decode personTable other ["name", "id", "born"] = .ok record → other = row := by
  intro row record
  have hlength : row.length = personTable.rowSize := by decide
  have hdecode : decode personTable row ["name", "id", "born"] = .ok record := by decide +kernel
  obtain ⟨hencode, hsame⟩ := encode_restores hlength (by decide) hdecode
  exact ⟨hlength, hdecode, hencode _ (.swap _ _ _), hsame⟩

end Row

end Tabular
