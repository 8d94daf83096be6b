import Tabular.Catalog
import Tabular.Disk.Path
import Tabular.Proofs.Catalog
import Tabular.Proofs.Row

/-! # What is refused

An append is refused for what it asks: for a table that is not known, for values that
make up no row of the table, or for a name that is no file's name. In all other cases
there is a row to append. The causes are stated without the code that looks for them.
-/

namespace Tabular

theorem Cell.exists_encode_iff {column : String} {type : ColumnType} {value : Value} :
    (∃ cell, encode column type value = .ok cell) ↔
      type.isInteger = (value.kind == .integer) ∧
        ∀ n, value = .integer n → -0x80000000 ≤ n.toInt ∧ n.toInt < 0x80000000 := by
  constructor
  · rintro ⟨cell, hencode⟩
    rcases encode_eq_ok hencode with ⟨n, htype, rfl, hbounds, -⟩ | ⟨width, s, rfl, rfl, -⟩
    · refine ⟨htype, fun other hother => ?_⟩
      cases hother
      exact hbounds
    · exact ⟨rfl, nofun⟩
  · rintro ⟨hkind, hrange⟩
    cases value with
    | text s => cases type <;> first | exact ⟨_, rfl⟩ | cases hkind
    | integer n => cases type <;> first | exact ⟨_, if_pos (hrange n rfl)⟩ | cases hkind

namespace Row

variable {schema : Schema} {values : List (String × Value)}

/-- Why named values make up no row of a schema. -/
inductive Misfit (schema : Schema) (values : List (String × Value)) : Prop
  | unknown {name : String} {value : Value} (hgiven : (name, value) ∈ values)
    (hunknown : name ∉ schema.columnNames)
  | missing {column : Column} (hcolumn : column ∈ schema.columns)
    (hmissing : values.lookup column.name = none)
  | mistyped {column : Column} {value : Value} (hcolumn : column ∈ schema.columns)
    (hgiven : values.lookup column.name = some value)
    (hkind : column.type.isInteger ≠ (value.kind == .integer))
  | outOfRange {column : Column} {n : Int64} (hcolumn : column ∈ schema.columns)
    (hgiven : values.lookup column.name = some (.integer n))
    (hrange : ¬(-0x80000000 ≤ n.toInt ∧ n.toInt < 0x80000000))

theorem unknownName?_eq_none_iff :
    unknownName? schema values = none ↔ ∀ entry ∈ values, entry.1 ∈ schema.columnNames := by
  simp [unknownName?]

theorem exists_cellFor_iff {column : Column} :
    (∃ cell, cellFor values column = .ok cell) ↔
      ∃ value, values.lookup column.name = some value ∧
        ∃ cell, Cell.encode column.name column.type value = .ok cell := by
  rw [cellFor, valueFor?_eq_lookup]
  cases values.lookup column.name with
  | none => simp
  | some value => simp

/-- Values are encoded unless they are a misfit. -/
theorem exists_encode_iff : (∃ row, encode schema values = .ok row) ↔ ¬Misfit schema values := by
  constructor
  · rintro ⟨row, hencode⟩ hmisfit
    -- Each cause is at odds with the value of its column being encoded.
    have hvalue : ∀ column ∈ schema.columns, ∃ value, values.lookup column.name = some value ∧
        ∃ cell, Cell.encode column.name column.type value = .ok cell := by
      intro column hcolumn
      obtain ⟨cells, hcells, -⟩ := encode_eq_ok hencode
      exact exists_cellFor_iff.mp (forall₂_exists_left hcells.flip column hcolumn)
    cases hmisfit with
    | @unknown name value hgiven hunknown =>
        have hknown : unknownName? schema values = none := by
          rw [encode] at hencode
          split at hencode
          · cases hencode
          next hnone => exact hnone
        exact hunknown (unknownName?_eq_none_iff.mp hknown _ hgiven)
    | missing hcolumn hmissing =>
        obtain ⟨value, hgiven, -⟩ := hvalue _ hcolumn
        rw [hmissing] at hgiven
        cases hgiven
    | mistyped hcolumn hgiven hkind =>
        obtain ⟨value, hvalue, hcell⟩ := hvalue _ hcolumn
        rw [hgiven] at hvalue
        cases hvalue
        exact hkind (Cell.exists_encode_iff.mp hcell).1
    | outOfRange hcolumn hgiven hrange =>
        obtain ⟨value, hvalue, hcell⟩ := hvalue _ hcolumn
        rw [hgiven] at hvalue
        cases hvalue
        exact hrange ((Cell.exists_encode_iff.mp hcell).2 _ rfl)
  · intro hfits
    have hknown : unknownName? schema values = none := by
      rw [unknownName?_eq_none_iff]
      intro entry hentry
      by_contra hunknown
      exact hfits (.unknown hentry hunknown)
    have hcells : ∀ column ∈ schema.columns, ∃ cell, cellFor values column = .ok cell := by
      intro column hcolumn
      rw [exists_cellFor_iff]
      cases hgiven : values.lookup column.name with
      | none => exact absurd (.missing hcolumn hgiven) hfits
      | some value =>
          refine ⟨value, rfl, Cell.exists_encode_iff.mpr ⟨?_, ?_⟩⟩
          · by_contra hkind
            exact hfits (.mistyped hcolumn hgiven hkind)
          · rintro n rfl
            by_contra hrange
            exact hfits (.outOfRange hcolumn hgiven hrange)
    obtain ⟨cells, hcells⟩ := exists_mapM_ok hcells
    exact ⟨cells.flatten, by rw [encode, hknown, hcells]; rfl⟩

end Row

namespace Catalog

variable {catalog : Catalog} {table : String} {values : List (String × Value)}

/-- Why an append is refused for what it asks. -/
inductive Refuses (catalog : Catalog) (table : String) (values : List (String × Value)) : Prop
  | unknownTable (hunknown : ∀ schema ∈ catalog.tables, schema.name ≠ table)
  | misfit {schema : Schema} (hschema : catalog.resolve table = .ok schema)
    (hmisfit : Row.Misfit schema values)
  | fileName (hname : Path.isFileName table = false)

/-- A row is made for the file of a known table unless the append is refused. -/
theorem not_refuses_iff :
    ¬catalog.Refuses table values ↔ ∃ schema row, catalog.resolve table = .ok schema ∧
      Row.encode schema values = .ok row ∧ Path.isFileName table = true := by
  constructor
  · intro haccepted
    have hname : Path.isFileName table = true := by
      by_contra hname
      exact haccepted (.fileName (Bool.eq_false_of_not_eq_true hname))
    have hknown : ∃ schema ∈ catalog.tables, schema.name = table := by
      by_contra hunknown
      exact haccepted (.unknownTable fun schema hschema hsame => hunknown ⟨schema, hschema, hsame⟩)
    obtain ⟨schema, hmem, rfl⟩ := hknown
    have hschema := resolve_of_mem hmem
    obtain ⟨row, hencode⟩ := Row.exists_encode_iff.mpr fun hmisfit =>
      haccepted (.misfit hschema hmisfit)
    exact ⟨schema, row, hschema, hencode, hname⟩
  · rintro ⟨schema, row, hschema, hencode, hname⟩ hrefused
    cases hrefused with
    | unknownTable hunknown =>
        obtain ⟨hmem, hsame⟩ := resolve_eq_ok.mp hschema
        exact hunknown schema hmem hsame
    | misfit hschema' hmisfit =>
        rw [hschema] at hschema'
        cases hschema'
        exact Row.exists_encode_iff.mp ⟨row, hencode⟩ hmisfit
    | fileName hno =>
        rw [hname] at hno
        cases hno

end Catalog

end Tabular
