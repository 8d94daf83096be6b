import Tabular.Proofs.Footprint

/-! # Whole rows of a file

Whatever bytes a file holds, its readers see the whole rows that it starts with and drop
what is left of a row at the end. A writer adds a row behind all bytes. So an append makes
one more row visible in every case. It is the row that was appended if the file held whole
rows. Behind part of a row it is that part and the beginning of the appended row.
-/

namespace Tabular

namespace Row

/-- The rows that are seen of a content: those of a chunk that holds all of it. -/
def visible (size : Nat) (content : Bytes) : List Bytes :=
  (Chunk.ofContent content 0 content.length).rows size

/-- What is left of a content behind its whole rows. -/
def torn (size : Nat) (content : Bytes) : Bytes :=
  content.drop (content.length / size * size)

variable {size : Nat} {content row : Bytes}

theorem visible_eq_slices (size : Nat) (content : Bytes) :
    visible size content = slices size (content.length / size) content := by
  rw [visible, Chunk.rows_ofContent, Nat.min_self]

theorem torn_eq_nil (haligned : size ∣ content.length) : torn size content = [] := by
  rw [torn, Nat.div_mul_cancel haligned, List.drop_length]

/-- Behind a content as many bytes as a row has make one more whole row, which starts with
what was left of a row there. -/
theorem visible_append (hsize : 0 < size) (hrow : row.length = size) (content : Bytes) :
    visible size (content ++ row) =
      visible size content ++ [(torn size content ++ row).take size] := by
  have hcount : (content ++ row).length / size = content.length / size + 1 := by
    rw [List.length_append, hrow, Nat.add_div_right _ hsize]
  have hwhole : content.length / size * size ≤ content.length := Nat.div_mul_le_self ..
  have hbefore : slices size (content.length / size) (content ++ row) =
      slices size (content.length / size) content := by
    rw [← slices_take hwhole (content ++ row), List.take_left]
  have hnew : slices size 1 ((content ++ row).drop (content.length / size * size)) =
      [(torn size content ++ row).take size] := by
    rw [List.drop_append_of_le_length hwhole, slices_one, torn]
  rw [visible_eq_slices, visible_eq_slices, hcount, slices_add, hbefore, hnew]

/-- The columns of a written row are read back as the values it was written from. -/
theorem decode_of_encode {schema : Schema} {values : List (String × Value)}
    (hencode : encode schema values = .ok row) :
    ∃ record, decode schema row schema.columnNames = .ok record ∧ record.Holds schema values := by
  obtain ⟨record, hdecode⟩ : ∃ record, decode schema row schema.columnNames = .ok record := by
    apply exists_decode
    intro name hname
    obtain ⟨column, hcolumn, rfl⟩ := List.mem_map.mp hname
    obtain ⟨-, stored, -, hread, -⟩ := decodeColumn_of_encode hencode hcolumn
    exact ⟨stored, hread⟩
  obtain ⟨hnames, hvalues⟩ := decode_eq_ok hdecode
  have hrecord : Selection.IsRecord ⟨.all, schema.name, none⟩ schema row record := ⟨hnames, hvalues⟩
  exact ⟨record, hdecode, hrecord.holds rfl hencode⟩

end Row

namespace Database

variable {config : Config} {catalog : Catalog} {tree after : FileTree} {table : String}
  {schema : Schema} {values : List (String × Value)}

/-- An append that succeeds puts the encoded row behind all that the file of the table held,
a missing file being an empty one. One more whole row is seen in the file then. It is made of
the part of a row at the end of the file, if there was one, and the first bytes of the encoded
row. Behind whole rows it is the encoded row, and it is read back as the values that were
appended. -/
theorem append_adds_one_row (hschema : catalog.resolve table = .ok schema)
    (hsize : 0 < schema.rowSize)
    (happend : ((Database.mk FileTree.disk config catalog).append table values).run tree =
      (.ok (), after)) :
    ∃ row place content, Row.encode schema values = .ok row ∧
      after.resolve (config.tablePath table) = .ok place ∧
      content = (tree.content? place).getD [] ∧ after.content? place = some (content ++ row) ∧
      Row.visible schema.rowSize (content ++ row) =
        Row.visible schema.rowSize content ++
          [(Row.torn schema.rowSize content ++ row).take schema.rowSize] ∧
      (schema.rowSize ∣ content.length →
        Row.visible schema.rowSize (content ++ row) =
            Row.visible schema.rowSize content ++ [row] ∧
          ∃ record, Row.decode schema row schema.columnNames = .ok record ∧
            record.Holds schema values) := by
  cases append_leaves happend with
  | @appended table values known row place after haccepted hknown hencode hrow hcurrent hplace
      hcontent hothers =>
      rw [hschema] at hknown
      cases hknown
      have hrows := Row.visible_append hsize hrow ((tree.content? place).getD [])
      refine ⟨row, place, _, hencode, hplace, rfl, hcontent, hrows, fun haligned => ?_⟩
      refine ⟨?_, Row.decode_of_encode hencode⟩
      rw [hrows, Row.torn_eq_nil haligned, List.nil_append, List.take_of_length_le hrow.le]

theorem append_adds_one_row_labels :
    let values := [("id", .integer 3), ("text", .text "cc")]
    let step := ((Database.mk FileTree.disk labelConfig labelCatalog).append "Label" values).run
      labelTree
    labelCatalog.resolve "Label" = .ok labelTable ∧ 0 < labelTable.rowSize ∧ step.1 = .ok () ∧
      ∃ row record, Row.encode labelTable values = .ok row ∧
        step.2.content? ["Label", "labels", "data"] = some ([1, 0, 0, 0, 97, 98] ++ row) ∧
        Row.visible 6 ([1, 0, 0, 0, 97, 98] ++ row) =
          Row.visible 6 [1, 0, 0, 0, 97, 98] ++ [row] ∧
        Row.decode labelTable row ["id", "text"] = .ok record ∧ record.Holds labelTable values := by
  intro values step
  have hschema : labelCatalog.resolve "Label" = .ok labelTable := by decide
  have hsize : 0 < labelTable.rowSize := by decide
  have houtcome : step.1 = .ok () := by decide +kernel
  have happend : step = (.ok (), step.2) := by
    rw [← houtcome]
    rfl
  obtain ⟨row, place, content, hencode, hplace, hbefore, hafter, -, haligned⟩ :=
    append_adds_one_row hschema hsize happend
  have hlabel : step.2.resolve (labelConfig.tablePath "Label") = .ok ["Label", "labels", "data"] := by
    decide +kernel
  cases hlabel.symm.trans hplace
  have hcontent : content = [1, 0, 0, 0, 97, 98] := hbefore.trans (by decide +kernel)
  subst hcontent
  obtain ⟨hrows, record, hdecode, hholds⟩ := haligned (by decide)
  exact ⟨hschema, hsize, houtcome, row, record, hencode, hafter, hrows, hdecode, hholds⟩

/-- The file of the users holds the first bytes of a row. -/
def tornTree : FileTree :=
  (((FileTree.empty []).put ["data"] .directory).put ["labels", "data"] .directory).put
    ["User", "labels", "data"] (.file [1, 0, 0])

/-- A user that is appended behind part of a row is not the one that is seen there. The first
number of that one is made of the bytes that were there and the first byte of the new row. -/
theorem append_unseen_users :
    let values := [("id", .integer 2), ("age", .integer 24)]
    let database := Database.mk FileTree.disk labelConfig .builtin
    let step := (database.append "User" values).run tornTree
    step.1 = .ok () ∧ tornTree.content? ["User", "labels", "data"] = some [1, 0, 0] ∧
      ((database.query "select * from User").run step.2).1 =
        .ok ⟨["id", "age"], [⟨[("id", .integer 33554433), ("age", .integer 402653184)]⟩], false,
          none⟩ ∧
      ¬ ∃ content row record, step.2.content? ["User", "labels", "data"] = some content ∧
        Row.visible 8 content = Row.visible 8 [1, 0, 0] ++ [row] ∧
        Row.decode Catalog.userTable row ["id", "age"] = .ok record ∧
          record.Holds Catalog.userTable values := by
  intro values database step
  refine ⟨by decide +kernel, by decide +kernel, by decide +kernel, ?_⟩
  rintro ⟨content, row, record, hcontent, hrows, hdecode, hholds⟩
  have hafter : step.2.content? ["User", "labels", "data"] =
      some [1, 0, 0, 2, 0, 0, 0, 24, 0, 0, 0] := by decide +kernel
  cases hafter.symm.trans hcontent
  have hseen : Row.visible 8 [1, 0, 0, 2, 0, 0, 0, 24, 0, 0, 0] =
      Row.visible 8 [1, 0, 0] ++ [[1, 0, 0, 2, 0, 0, 0, 24]] := by decide +kernel
  cases List.append_cancel_left (hseen.symm.trans hrows)
  have hread : Row.decode Catalog.userTable [1, 0, 0, 2, 0, 0, 0, 24] ["id", "age"] =
      .ok ⟨[("id", .integer 33554433), ("age", .integer 402653184)]⟩ := by decide +kernel
  cases hread.symm.trans hdecode
  obtain ⟨-, given, hgiven, hnormal⟩ := (List.forall₂_cons.mp hholds).1
  cases hgiven
  cases hnormal

end Database

end Tabular
