import Tabular.Proofs.Execution
import Tabular.Proofs.FirstChunk
import Tabular.Proofs.Printing
import Tabular.Proofs.Row

/-! # The shape of results

A result is a table. Its columns are different names, every record has exactly these
fields in this order, and the lists of values line up with the columns. All of it goes back
to the fields of a selection: whether they were named in a script or are all columns of a
schema, there is one of them at least and none of them twice.
-/

namespace Tabular

namespace Record

variable {record : Record}

theorem forall₂_values (hdistinct : record.names.Nodup) :
    List.Forall₂ (fun name value => record.get? name = some value) record.names record.values := by
  unfold names values
  simp only [List.forall₂_map_left_iff, List.forall₂_map_right_iff, List.forall₂_same]
  intro entry hentry
  exact get?_of_mem hdistinct hentry

end Record

/-- The columns are one name or more, all different. Every record has these fields and no
others, in this order, and a list of values has one for each column, which is what the record
holds under the name of the column. -/
structure QueryResult.Consistent (result : QueryResult) : Prop where
  nonempty : result.columns ≠ []
  distinct : result.columns.Nodup
  names : ∀ record ∈ result.rows, record.names = result.columns
  values : List.Forall₂ (fun record values =>
      List.Forall₂ (fun column value => record.get? column = some value) result.columns values)
    result.rows result.valueRows

theorem QueryResult.consistent_of_names {result : QueryResult} (hnonempty : result.columns ≠ [])
    (hdistinct : result.columns.Nodup)
    (hnames : ∀ record ∈ result.rows, record.names = result.columns) : result.Consistent := by
  refine ⟨hnonempty, hdistinct, hnames, ?_⟩
  rw [valueRows, List.forall₂_map_right_iff, List.forall₂_same]
  intro record hrecord
  have hcolumns := hnames record hrecord
  rw [← hcolumns] at hdistinct ⊢
  exact Record.forall₂_values hdistinct

/-- A selection that can be read has fields, and none of them twice, in every schema. -/
theorem Selection.WellFormed.fieldNames {selection : Selection} (hwell : selection.WellFormed)
    (schema : Schema) :
    selection.fieldNames schema ≠ [] ∧ (selection.fieldNames schema).Nodup := by
  rw [Selection.fieldNames]
  cases hfields : selection.fields with
  | all =>
      refine ⟨?_, schema.distinct⟩
      intro hnone
      exact schema.nonempty (List.map_eq_nil_iff.mp hnone)
  | named names => exact hwell.fields names hfields

theorem Plan.Executes.consistent_of_scan {plan : Plan} {selection : Selection} {schema : Schema}
    (hplan : plan.Executes selection schema) (hwell : selection.WellFormed) {chunk : Chunk}
    {result : QueryResult} (hscan : plan.scan chunk = .ok result) : result.Consistent := by
  obtain ⟨hnonempty, hdistinct⟩ := hwell.fieldNames schema
  rw [hplan.scan_eq] at hscan
  obtain ⟨records, hanswer, rfl⟩ := Outcome.map_eq_ok.mp hscan
  apply QueryResult.consistent_of_names hnonempty hdistinct
  intro record hrecord
  obtain ⟨row, hisRecord⟩ :=
    forall₂_exists_left (Selection.records_of_answerRows hanswer) record hrecord
  exact hisRecord.names.trans (Fields.distinct_of_nodup hdistinct)

/-- What a statement is to do is what its selection asks for. -/
theorem Statement.executes_of_plan {statement : Statement} {catalog : Catalog} {chunkSize : Nat}
    {table : String} {plan : Plan} (hplan : statement.plan catalog chunkSize = .ok (table, plan)) :
    ∃ selection schema, statement = .select selection ∧ plan.Executes selection schema := by
  cases statement with
  | unsupported command => cases hplan
  | select selection =>
      obtain ⟨schema, -, hplan⟩ := Outcome.bind_eq_ok.mp hplan
      obtain ⟨made, hmade, hplan⟩ := Outcome.bind_eq_ok.mp hplan
      cases hplan
      exact ⟨selection, schema, rfl, (Plan.executes_of_ofSelection hmade).1⟩

/-- The selections of a script are ones that can be read. -/
theorem Script.wellFormed_of_parse {script : String} {statements : List Statement}
    (hparse : parse script = .ok statements) {selection : Selection}
    (hselection : .select selection ∈ statements) : selection.WellFormed := by
  obtain ⟨text, hread⟩ := forall₂_exists_left (mapM_eq_ok_iff.mp hparse) _ hselection
  exact Selection.wellFormed_of_ofText hread

namespace Engine

variable {σ Handle : Type} {engine : Engine (StateM σ) Handle} {state : σ}

theorem execute_consistent {statement : Statement}
    (hwell : ∀ selection, statement = .select selection → selection.WellFormed) {result : QueryResult}
    (hresult : ((engine.execute statement).run state).1 = .ok result) : result.Consistent := by
  cases hplan : statement.plan engine.catalog engine.chunkSize with
  | error e =>
      rw [(execute_of_plan_error engine hplan state).1] at hresult
      cases hresult
  | ok planned =>
      obtain ⟨selection, schema, hselection, hexecutes⟩ := Statement.executes_of_plan hplan
      obtain ⟨chunk, after, -, hrun⟩ := execute_of_plan engine hplan state
      rw [hrun] at hresult
      obtain ⟨data, -, hscan⟩ := Outcome.bind_eq_ok.mp hresult
      exact hexecutes.consistent_of_scan (hwell selection hselection) hscan

/-- Statements succeed together if the first does and the others do in the state after it. -/
theorem executeAll_cons_eq_ok {statement : Statement} {rest : List Statement}
    {results : List QueryResult}
    (hall : ((engine.executeAll (statement :: rest)).run state).1 = .ok results) :
    ∃ result others, results = result :: others ∧
      ((engine.execute statement).run state).1 = .ok result ∧
      ((engine.executeAll rest).run ((engine.execute statement).run state).2).1 = .ok others := by
  rcases hfirst : (engine.execute statement).run state with ⟨⟨e⟩ | ⟨result⟩, next⟩
  · rw [executeAll_cons, run_bind_of_run hfirst] at hall
    cases hall
  · rw [executeAll_cons, run_bind_of_run hfirst] at hall
    obtain ⟨others, hothers, hresults⟩ := Outcome.map_eq_ok.mp hall
    exact ⟨result, others, hresults.symm, rfl, hothers⟩

theorem executeAll_consistent {statements : List Statement}
    (hwell : ∀ selection, .select selection ∈ statements → selection.WellFormed)
    {results : List QueryResult}
    (hall : ((engine.executeAll statements).run state).1 = .ok results) :
    ∀ result ∈ results, result.Consistent := by
  induction statements generalizing state results with
  | nil =>
      cases hall
      exact nofun
  | cons statement rest ih =>
      obtain ⟨result, others, rfl, hresult, hothers⟩ := executeAll_cons_eq_ok hall
      refine List.forall_mem_cons.mpr ⟨?_, ?_⟩
      · apply execute_consistent _ hresult
        rintro selection rfl
        exact hwell selection List.mem_cons_self
      · apply ih _ hothers
        intro selection hselection
        exact hwell selection (List.mem_cons_of_mem _ hselection)

/-- Every result of a script is a table of consistent shape, whatever the catalog, and
whatever the storage does: the columns are there and all different, the fields of every
record are the columns in their order, and every list of values has the values of the
columns one by one. -/
theorem run_consistent {script : String} {results : List QueryResult}
    (hrun : ((engine.run script).run state).1 = .ok results) :
    ∀ result ∈ results, result.Consistent := by
  rw [run_eq] at hrun
  cases hparse : Script.parse script with
  | error fault =>
      rw [hparse] at hrun
      cases hrun
  | ok statements =>
      rw [hparse] at hrun
      exact executeAll_consistent (fun _ => Script.wellFormed_of_parse hparse) hrun

/-- A field that is named twice is one column. -/
theorem run_consistent_users :
    ((userEngine.run "select age, id, age from User; select * from User").run userMemory).1 =
        .ok [⟨["age", "id"], [⟨[("age", .integer 30), ("id", .integer 7)]⟩], false, none⟩,
          ⟨["id", "age"], [⟨[("id", .integer 7), ("age", .integer 30)]⟩], false, none⟩] ∧
      QueryResult.Consistent
        ⟨["age", "id"], [⟨[("age", .integer 30), ("id", .integer 7)]⟩], false, none⟩ := by
  have hrun : ((userEngine.run "select age, id, age from User; select * from User").run
      userMemory).1 =
        .ok [⟨["age", "id"], [⟨[("age", .integer 30), ("id", .integer 7)]⟩], false, none⟩,
          ⟨["id", "age"], [⟨[("id", .integer 7), ("age", .integer 30)]⟩], false, none⟩] := by
    decide +kernel
  exact ⟨hrun, run_consistent hrun _ List.mem_cons_self⟩

end Engine

end Tabular
