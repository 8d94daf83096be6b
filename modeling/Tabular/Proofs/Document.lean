import Tabular.Catalog.Document
import Tabular.Proofs.Catalog
import Tabular.Proofs.ColumnType
import Tabular.Proofs.Fields
import Tabular.Proofs.Json
import Tabular.Proofs.Schema

/-! # Reading back catalogs

A document lists tables if its value describes each of them, in whatever form structures
may be written. Such a document is read as exactly these tables, and it is a catalog if no
two of them share a name. What is written for a catalog lists its tables.
-/

namespace Tabular

/-- The value describes the column: its name, and some text of its type. -/
def Column.WrittenAs (column : Column) (value : Json) : Prop :=
  ∃ text, Json.Gives [("name", .string column.name), ("type", .string text)] value ∧
    ColumnType.ofText text = .ok column.type

/-- The value describes the schema: the name of the table and its columns in order. -/
def Schema.WrittenAs (schema : Schema) (value : Json) : Prop :=
  ∃ items, Json.Gives [("name", .string schema.name), ("columns", .array items)] value ∧
    List.Forall₂ Column.WrittenAs schema.columns items

/-- The text is a document that describes the schemas one after the other. -/
def Catalog.Lists (text : String) (schemas : List Schema) : Prop :=
  (Json.ofText text).complete = true ∧
    ∃ items, Json.Gives [("tables", .array items)] (Json.ofText text).value ∧
      List.Forall₂ Schema.WrittenAs schemas items

namespace Column

variable {column : Column} {value : Json}

theorem Draft.set_eq_ok {draft next : Draft} {field : String} :
    draft.set field value = .ok next ↔
      ∃ text, value = .string text ∧
        (field = "name" ∧ { draft with name := some text } = next ∨
          field ≠ "name" ∧ ∃ type, ColumnType.ofText text = .ok type ∧
            { draft with type := some type } = next) := by
  unfold Draft.set
  rw [Outcome.bind_eq_ok]
  refine exists_congr fun text => ?_
  rw [Json.asText_eq_ok]
  refine and_congr_right fun _ => ?_
  split
  next hfield => simp [hfield, pure, Except.pure]
  next hfield => cases ColumnType.ofText text <;> simp [hfield, pure, Except.pure]

theorem Draft.name_mem {draft : Draft} {given : List (String × Json)} {name : String}
    (hset : Json.setAll set ⟨none, none⟩ given = .ok draft) (hname : draft.name = some name) :
    ("name", .string name) ∈ given := by
  have hstep : ∀ key value, (key, value) ∈ given → ∀ draft next name,
      set draft key value = .ok next → next.name = some name →
        draft.name = some name ∨ key = "name" ∧ value = .string name := by
    intro key value _ draft next name hnext hget
    obtain ⟨text, hvalue, ⟨hkey, rfl⟩ | ⟨-, type, -, rfl⟩⟩ := set_eq_ok.mp hnext
    · cases hget
      exact .inr ⟨hkey, hvalue⟩
    · exact .inl hget
  obtain ⟨-, hmem, rfl⟩ := Json.exists_mem_of_setAll hset hstep rfl hname
  exact hmem

theorem Draft.exists_type_mem {draft : Draft} {given : List (String × Json)} {type : ColumnType}
    (hgiven : ∀ field ∈ given, field.1 ∈ ["name", "type"])
    (hset : Json.setAll set ⟨none, none⟩ given = .ok draft) (htype : draft.type = some type) :
    ∃ text, ("type", .string text) ∈ given ∧ ColumnType.ofText text = .ok type := by
  have hstep : ∀ key value, (key, value) ∈ given → ∀ draft next type,
      set draft key value = .ok next → next.type = some type →
        draft.type = some type ∨
          key = "type" ∧ ∃ text, value = .string text ∧ ColumnType.ofText text = .ok type := by
    intro key value hfield draft next type hnext hget
    obtain ⟨text, hvalue, ⟨-, rfl⟩ | ⟨hother, type, htext, rfl⟩⟩ := set_eq_ok.mp hnext
    · exact .inl hget
    · cases hget
      have hkey : key = "name" ∨ key = "type" := by simpa using hgiven _ hfield
      exact .inr ⟨hkey.resolve_left hother, text, hvalue, htext⟩
  obtain ⟨-, hmem, text, rfl, htext⟩ := Json.exists_mem_of_setAll hset hstep rfl htype
  exact ⟨text, hmem, htext⟩

/-- A column is read exactly from the values that describe it. -/
theorem ofJson_eq_ok : ofJson value = .ok column ↔ column.WrittenAs value := by
  unfold ofJson
  simp only [Outcome.bind_eq_ok, Json.foldFields_eq_ok, Json.required_eq_ok]
  constructor
  · rintro ⟨draft, ⟨given, hpresents, hset⟩, name, hname, type, htype, hmade⟩
    cases hmade
    obtain ⟨text, htyped, htext⟩ :=
      Draft.exists_type_mem (fun _ => hpresents.mem_names) hset htype
    exact ⟨text, hpresents.gives_pair (by decide) (Draft.name_mem hset hname) htyped, htext⟩
  · rintro ⟨text, hgives, htext⟩
    have hname : ∀ draft : Draft, draft.set "name" (.string column.name) =
        .ok { draft with name := some column.name } :=
      fun draft => Draft.set_eq_ok.mpr ⟨column.name, rfl, .inl ⟨rfl, rfl⟩⟩
    have htype : ∀ draft : Draft, draft.set "type" (.string text) =
        .ok { draft with type := some column.type } :=
      fun draft => Draft.set_eq_ok.mpr ⟨text, rfl, .inr ⟨by decide, column.type, htext, rfl⟩⟩
    have hfold : value.foldFields ["name", "type"] Draft.set ⟨none, none⟩ =
        .ok ⟨some column.name, some column.type⟩ := by
      refine hgives.foldFields_pair ?_ ?_
      · simp only [Json.setAll_cons, hname, htype]
        rfl
      · simp only [Json.setAll_cons, hname, htype]
        rfl
    exact ⟨_, Json.foldFields_eq_ok.mp hfold, column.name, rfl, column.type, rfl, rfl⟩

end Column

namespace Schema

variable {schema : Schema} {value : Json}

theorem Draft.set_eq_ok {draft next : Draft} {field : String} :
    draft.set field value = .ok next ↔
      field = "name" ∧ (∃ text, value = .string text ∧ { draft with name := some text } = next) ∨
        field ≠ "name" ∧ ∃ columns, (∃ items, value = .array items ∧
          List.Forall₂ Column.WrittenAs columns items) ∧
            { draft with columns := some columns } = next := by
  unfold Draft.set
  split
  next hfield =>
    simp [hfield, Outcome.bind_eq_ok, Json.asText_eq_ok, pure, Except.pure]
  next hfield =>
    simp [hfield, Outcome.bind_eq_ok, Json.asList_eq_ok, Column.ofJson_eq_ok, pure, Except.pure]

theorem Draft.name_mem {draft : Draft} {given : List (String × Json)} {name : String}
    (hset : Json.setAll set ⟨none, none⟩ given = .ok draft) (hname : draft.name = some name) :
    ("name", .string name) ∈ given := by
  have hstep : ∀ key value, (key, value) ∈ given → ∀ draft next name,
      set draft key value = .ok next → next.name = some name →
        draft.name = some name ∨ key = "name" ∧ value = .string name := by
    intro key value _ draft next name hnext hget
    obtain ⟨hkey, text, hvalue, rfl⟩ | ⟨-, columns, -, rfl⟩ := set_eq_ok.mp hnext
    · cases hget
      exact .inr ⟨hkey, hvalue⟩
    · exact .inl hget
  obtain ⟨-, hmem, rfl⟩ := Json.exists_mem_of_setAll hset hstep rfl hname
  exact hmem

theorem Draft.exists_columns_mem {draft : Draft} {given : List (String × Json)}
    {columns : List Column} (hgiven : ∀ field ∈ given, field.1 ∈ ["name", "columns"])
    (hset : Json.setAll set ⟨none, none⟩ given = .ok draft)
    (hcolumns : draft.columns = some columns) :
    ∃ items, ("columns", .array items) ∈ given ∧ List.Forall₂ Column.WrittenAs columns items := by
  have hstep : ∀ key value, (key, value) ∈ given → ∀ draft next columns,
      set draft key value = .ok next → next.columns = some columns →
        draft.columns = some columns ∨
          key = "columns" ∧ ∃ items, value = .array items ∧
            List.Forall₂ Column.WrittenAs columns items := by
    intro key value hfield draft next columns hnext hget
    obtain ⟨-, text, -, rfl⟩ | ⟨hother, columns, hvalue, rfl⟩ := set_eq_ok.mp hnext
    · exact .inl hget
    · cases hget
      have hkey : key = "name" ∨ key = "columns" := by simpa using hgiven _ hfield
      exact .inr ⟨hkey.resolve_left hother, hvalue⟩
  obtain ⟨-, hmem, items, rfl, hitems⟩ := Json.exists_mem_of_setAll hset hstep rfl hcolumns
  exact ⟨items, hmem, hitems⟩

/-- A schema is read exactly from the values that describe it. -/
theorem ofJson_eq_ok : ofJson value = .ok schema ↔ schema.WrittenAs value := by
  unfold ofJson
  simp only [Outcome.bind_eq_ok, Json.foldFields_eq_ok, Json.required_eq_ok,
    Outcome.mapError_eq_ok, ofColumns_eq_ok]
  constructor
  · rintro ⟨draft, ⟨given, hpresents, hset⟩, name, hname, columns, hcolumns, rfl, rfl⟩
    obtain ⟨items, hlisted, hitems⟩ :=
      Draft.exists_columns_mem (fun _ => hpresents.mem_names) hset hcolumns
    exact ⟨items, hpresents.gives_pair (by decide) (Draft.name_mem hset hname) hlisted, hitems⟩
  · rintro ⟨items, hgives, hitems⟩
    have hname : ∀ draft : Draft, draft.set "name" (.string schema.name) =
        .ok { draft with name := some schema.name } :=
      fun draft => Draft.set_eq_ok.mpr (.inl ⟨rfl, schema.name, rfl, rfl⟩)
    have hcolumns : ∀ draft : Draft, draft.set "columns" (.array items) =
        .ok { draft with columns := some schema.columns } :=
      fun draft => Draft.set_eq_ok.mpr
        (.inr ⟨by decide, schema.columns, ⟨items, rfl, hitems⟩, rfl⟩)
    have hfold : value.foldFields ["name", "columns"] Draft.set ⟨none, none⟩ =
        .ok ⟨some schema.name, some schema.columns⟩ := by
      refine hgives.foldFields_pair ?_ ?_
      · simp only [Json.setAll_cons, hname, hcolumns]
        rfl
      · simp only [Json.setAll_cons, hname, hcolumns]
        rfl
    exact ⟨_, Json.foldFields_eq_ok.mp hfold, schema.name, rfl, schema.columns, rfl, rfl, rfl⟩

end Schema

namespace Catalog

variable {text : String} {schemas : List Schema}

theorem setTables_eq_ok {draft next : Option (List Schema)} {field : String} {value : Json} :
    setTables draft field value = .ok next ↔
      ∃ schemas, (∃ items, value = .array items ∧ List.Forall₂ Schema.WrittenAs schemas items) ∧
        some schemas = next := by
  simp only [setTables, Outcome.map_eq_ok, Json.asList_eq_ok, Schema.ofJson_eq_ok]

theorem exists_tables_mem {given : List (String × Json)}
    (hgiven : ∀ field ∈ given, field.1 ∈ ["tables"])
    (hset : Json.setAll setTables none given = .ok (some schemas)) :
    ∃ items, ("tables", .array items) ∈ given ∧ List.Forall₂ Schema.WrittenAs schemas items := by
  -- The draft is nothing but the tables.
  have hstep : ∀ key value, (key, value) ∈ given → ∀ draft next schemas,
      setTables draft key value = .ok next → id next = some schemas →
        id draft = some schemas ∨
          key = "tables" ∧ ∃ items, value = .array items ∧
            List.Forall₂ Schema.WrittenAs schemas items := by
    intro key value hfield draft next schemas hnext hget
    obtain ⟨schemas, hvalue, rfl⟩ := setTables_eq_ok.mp hnext
    cases hget
    exact .inr ⟨List.mem_singleton.mp (hgiven _ hfield), hvalue⟩
  obtain ⟨-, hmem, items, rfl, hitems⟩ := Json.exists_mem_of_setAll hset hstep rfl rfl
  exact ⟨items, hmem, hitems⟩

/-- The tables of a document are read exactly if it lists them. -/
theorem readSchemas_eq_ok : readSchemas text = .ok schemas ↔ Lists text schemas := by
  unfold readSchemas
  simp only [Outcome.bind_eq_ok, Json.foldFields_eq_ok, Json.required_eq_ok]
  constructor
  · rintro ⟨draft, ⟨given, hpresents, hset⟩, tables, rfl, hreturn⟩
    split at hreturn
    next hcomplete =>
      cases hreturn
      obtain ⟨items, hmem, hitems⟩ := exists_tables_mem (fun _ => hpresents.mem_names) hset
      refine ⟨hcomplete, items, hpresents.gives (by simp) rfl fun field hfield => ?_, hitems⟩
      rw [List.mem_singleton.mp hfield]
      exact hmem
    next => cases hreturn
  · rintro ⟨hcomplete, items, ⟨given, hpresents, hperm⟩, hitems⟩
    have htables : setTables none "tables" (.array items) = .ok (some schemas) :=
      setTables_eq_ok.mpr ⟨schemas, ⟨items, rfl, hitems⟩, rfl⟩
    refine ⟨some schemas, ⟨given, hpresents, ?_⟩, schemas, rfl, ?_⟩
    · rw [List.perm_singleton.mp hperm, Json.setAll_cons, htables]
      rfl
    · rw [hcomplete]
      rfl

/-- A document is read as the catalog of the tables that it lists. -/
theorem ofText_of_lists (hlists : Lists text schemas) : ofText text = ofSchemas schemas := by
  rw [ofText, readSchemas_eq_ok.mpr hlists]
  rfl

/-- A document is a catalog exactly if it lists tables no two of which share a name. -/
theorem exists_ofText_iff :
    (∃ catalog, ofText text = .ok catalog) ↔
      ∃ schemas, Lists text schemas ∧ (schemas.map Schema.name).Nodup := by
  constructor
  · rintro ⟨catalog, hcatalog⟩
    rw [ofText, Outcome.bind_eq_ok] at hcatalog
    obtain ⟨schemas, hschemas, hmade⟩ := hcatalog
    have hlists := readSchemas_eq_ok.mp (Outcome.mapError_eq_ok.mp hschemas)
    exact ⟨schemas, hlists, (ofSchemas_eq_ok.mp hmade).1⟩
  · rintro ⟨schemas, hlists, hdistinct⟩
    rw [ofText_of_lists hlists]
    exact exists_ofSchemas_iff.mpr hdistinct

end Catalog

/-- All columns of the table are of types that texts denote. -/
def Schema.IsWritable (schema : Schema) : Prop :=
  ∀ column ∈ schema.columns, ∃ text, ColumnType.ofText text = .ok column.type

theorem Column.textual_toJson (column : Column) : column.toJson.Textual := by
  refine .object ?_
  simp only [List.forall_mem_cons, List.not_mem_nil, false_implies, implies_true, and_true]
  exact ⟨.string column.name, .string column.type.name⟩

theorem Column.writtenAs_toJson {column : Column}
    (htype : ∃ text, ColumnType.ofText text = .ok column.type) : column.WrittenAs column.toJson :=
  ⟨column.type.name, Json.gives_ofEntries (by simp),
    ColumnType.ofText_name (ColumnType.exists_ofText_iff.mp htype)⟩

namespace Schema

theorem textual_toJson (schema : Schema) : schema.toJson.Textual := by
  have hcolumns : ∀ value ∈ schema.columns.map Column.toJson, value.Textual :=
    List.forall_mem_map.mpr fun column _ => column.textual_toJson
  refine .object ?_
  simp only [List.forall_mem_cons, List.not_mem_nil, false_implies, implies_true, and_true]
  exact ⟨.string schema.name, .array hcolumns⟩

theorem writtenAs_toJson {schema : Schema} (hschema : schema.IsWritable) :
    schema.WrittenAs schema.toJson := by
  refine ⟨schema.columns.map Column.toJson, Json.gives_ofEntries (by simp), ?_⟩
  rw [List.forall₂_map_right_iff, List.forall₂_same]
  exact fun column hcolumn => Column.writtenAs_toJson (hschema column hcolumn)

end Schema

namespace Catalog

/-- What is written for schemas lists them. -/
theorem lists_document {schemas : List Schema} (hschemas : ∀ schema ∈ schemas, schema.IsWritable) :
    Lists (document schemas).pretty schemas := by
  have htextual : (document schemas).Textual := by
    have htables : ∀ value ∈ schemas.map Schema.toJson, value.Textual :=
      List.forall_mem_map.mpr fun schema _ => schema.textual_toJson
    refine .object ?_
    simp only [List.forall_mem_cons, List.not_mem_nil, false_implies, implies_true, and_true]
    exact .array htables
  rw [Lists, htextual.ofText_pretty]
  refine ⟨rfl, schemas.map Schema.toJson, Json.gives_ofEntries (by simp), ?_⟩
  rw [List.forall₂_map_right_iff, List.forall₂_same]
  exact fun schema hschema => Schema.writtenAs_toJson (hschemas schema hschema)

/-- Catalogs are read back from what is written for them, and do not depend on the order
in which their tables were registered. A document is a catalog of the tables that it lists
exactly if no two of them share a name; otherwise the first table is reported that has the
name of an earlier one. -/
theorem json_roundtrip :
    (∀ catalog : Catalog, (∀ schema ∈ catalog.tables, schema.IsWritable) →
      ofText catalog.toText = .ok catalog) ∧
    (∀ (catalog made : Catalog) (schemas others : List Schema), schemas.Perm others →
      schemas.foldlM register catalog = .ok made → others.foldlM register catalog = .ok made) ∧
    ∀ (text : String) (schemas : List Schema), Lists text schemas →
      ((∃ catalog, ofText text = .ok catalog) ↔ (schemas.map Schema.name).Nodup) ∧
      (∀ catalog, ofText text = .ok catalog → catalog.tables.Perm schemas) ∧
      ∀ e, ofText text = .error e ↔
        ∃ before schema after, schemas = before ++ schema :: after ∧
          (before.map Schema.name).Nodup ∧ schema.name ∈ before.map Schema.name ∧
          e = .invalidArgument (.tableExists schema.name) := by
  refine ⟨fun catalog hcatalog => ?_, fun _ _ _ _ hperm hmade => registerAll_perm hperm hmade, ?_⟩
  · have hlists : Lists catalog.toText catalog.tables := lists_document hcatalog
    rw [ofText_of_lists hlists]
    exact ofSchemas_eq_ok.mpr ⟨nodup_names catalog, .refl _⟩
  · intro text schemas hlists
    rw [ofText_of_lists hlists]
    exact ⟨exists_ofSchemas_iff, fun catalog hcatalog => (ofSchemas_eq_ok.mp hcatalog).2,
      fun e => ofSchemas_eq_error⟩

/-- A table whose names are empty, hold quotes and control characters, or are not ASCII. -/
def oddTable : Schema where
  name := "\"a\\\n\x01日"
  columns := [⟨"", .char 10⟩, ⟨"\x7f/\"", .date⟩, ⟨"😀", .char 4294967000⟩]
  nonempty := by decide
  distinct := by decide
  narrow := by decide

def oddCatalog : Catalog where
  tables := [oddTable, userTable]
  sorted := by decide

theorem json_roundtrip_odd :
    ofText oddCatalog.toText = .ok oddCatalog ∧
      [userTable, oddTable].foldlM register empty = .ok oddCatalog ∧
      ofText (document [userTable, oddTable, userTable]).pretty =
        .error (.invalidArgument (.tableExists "User")) := by
  obtain ⟨hroundtrip, horder, hdocument⟩ := json_roundtrip
  have htypes : ∀ schema ∈ [userTable, oddTable, userTable], ∀ column ∈ schema.columns,
      column.type.IsDenotable := by decide
  have hwritable : ∀ schema ∈ [userTable, oddTable, userTable], schema.IsWritable :=
    fun schema hschema column hcolumn =>
      ColumnType.exists_ofText_iff.mpr (htypes schema hschema column hcolumn)
  refine ⟨hroundtrip oddCatalog fun schema hschema => ?_, ?_, ?_⟩
  · refine hwritable schema ?_
    simp only [oddCatalog, List.mem_cons, List.not_mem_nil, or_false] at hschema ⊢
    tauto
  · have hmade : [oddTable, userTable].foldlM register empty = .ok oddCatalog :=
      registerAll_eq_ok.mpr ⟨by decide, .refl _⟩
    exact horder empty oddCatalog _ _ (.swap userTable oddTable []) hmade
  · refine ((hdocument _ _ (lists_document hwritable)).2.2 _).mpr ?_
    exact ⟨[userTable, oddTable], userTable, [], rfl, by decide, by decide, rfl⟩

end Catalog

end Tabular
