import Tabular.Database
import Tabular.Proofs.Appending
import Tabular.Proofs.FirstChunk
import Tabular.Proofs.Row
import Tabular.Proofs.Script

/-! # Rows that come back

What has been appended to a table of a database is what a query of the table returns,
as far as it lies in the first chunk. Appends that fail and appends to other tables
make no difference.
-/

namespace Tabular

/-- Two relations between lists of the same items, one after the other. -/
theorem forall₂_comp {α β γ : Type} {R : α → β → Prop} {S : β → γ → Prop} {T : α → γ → Prop}
    {first : List α} {second : List β} {third : List γ} (hfirst : List.Forall₂ R first second)
    (hsecond : List.Forall₂ S second third) (hcomp : ∀ a b c, R a b → S b c → T a c) :
    List.Forall₂ T first third := by
  induction hfirst generalizing third with
  | nil =>
      cases hsecond
      exact .nil
  | cons hab hrest ih =>
      cases hsecond with
      | cons hbc hothers => exact .cons (hcomp _ _ _ hab hbc) (ih hothers)

namespace Selection

variable {schema : Schema}

/-- A selection of everything returns a record for every written row, which holds the
values that the row was written from. -/
theorem answerRows_all (table : String) {given : List (List (String × Value))} {rows : List Bytes}
    (hrows : List.Forall₂ (fun values row => Row.encode schema values = .ok row) given rows) :
    ∃ records, answerRows ⟨.all, table, none⟩ schema rows = .ok records ∧
      List.Forall₂ (fun values record => Record.Holds record schema values) given records := by
  have hcells : firstError? (rows.flatMap (cells ⟨.all, table, none⟩ schema)) = none := by
    rw [firstError?_eq_none_iff]
    intro cell hcell
    obtain ⟨row, hrow, hcell⟩ := List.mem_flatMap.mp hcell
    obtain ⟨name, hname, rfl⟩ := List.mem_map.mp (show cell ∈ fieldCells _ schema row from hcell)
    obtain ⟨column, hcolumn, rfl⟩ := List.mem_map.mp hname
    obtain ⟨values, hencode⟩ := forall₂_exists_left hrows row hrow
    obtain ⟨-, stored, -, hread, -⟩ := Row.decodeColumn_of_encode hencode hcolumn
    exact ⟨stored, hread⟩
  cases hanswer : answerRows ⟨.all, table, none⟩ schema rows with
  | error e =>
      rw [answerRows_eq_error_iff.mp hanswer] at hcells
      cases hcells
  | ok records =>
      refine ⟨records, rfl, ?_⟩
      have hadmits : rows.filter (admits ⟨.all, table, none⟩ schema) = rows :=
        List.filter_eq_self.mpr fun row _ => rfl
      have hrecords := records_of_answerRows hanswer
      rw [hadmits] at hrecords
      apply forall₂_comp hrows hrecords
      intro values row record hencode hrecord
      exact hrecord.holds rfl hencode

/-- A selection of everything from written rows returns the records of those that lie
whole in one chunk, and where the next row starts if there are more bytes. -/
theorem answerFrom_written (table : String) {chunkSize : Nat}
    (hchunk : 0 < chunkSize ∧ chunkSize ≤ maxChunkSize) (hsize : 0 < schema.rowSize)
    {given : List (List (String × Value))} {rows : List Bytes}
    (hrows : List.Forall₂ (fun values row => Row.encode schema values = .ok row) given rows) :
    ∃ records, List.Forall₂ (fun values record => Record.Holds record schema values)
        (given.take (chunkSize / schema.rowSize)) records ∧
      answerFrom ⟨.all, table, none⟩ chunkSize schema
          (.ok (Chunk.ofContent rows.flatten 0 chunkSize)) =
        .ok ⟨schema.columnNames, records, decide (chunkSize < given.length * schema.rowSize),
          if chunkSize < given.length * schema.rowSize then
            some (chunkSize / schema.rowSize * schema.rowSize)
          else none⟩ := by
  have hfits : Fits ⟨.all, table, none⟩ schema := ⟨fun _ hname => hname, nofun⟩
  obtain ⟨plan, hplan⟩ := Plan.exists_ofSelection hchunk hfits
  obtain ⟨records, hrecords, hholds⟩ :=
    answerRows_all table (List.forall₂_take (chunkSize / schema.rowSize) hrows)
  have hlengths : ∀ row ∈ rows, row.length = schema.rowSize := by
    intro row hrow
    obtain ⟨values, hencode⟩ := forall₂_exists_left hrows row hrow
    exact Row.length_of_encode hencode
  have hlength : rows.flatten.length = given.length * schema.rowSize := by
    rw [hrows.length_eq, List.length_flatten, List.map_congr_left hlengths, List.map_const',
      List.sum_replicate_nat]
  -- The rows in the chunk are those that fit into it, as far as there are any.
  have hcount : rowsInChunk schema chunkSize rows.flatten =
      min rows.length (chunkSize / schema.rowSize) := by
    have hmono : Monotone fun bytes => bytes / schema.rowSize := fun _ _ hle =>
      Nat.div_le_div_right hle
    have hmin := hmono.map_min (a := given.length * schema.rowSize) (b := chunkSize)
    rw [Nat.mul_div_cancel _ hsize] at hmin
    rw [rowsInChunk, hlength, hmin, hrows.length_eq]
  have htake : rows.take (min rows.length (chunkSize / schema.rowSize)) =
      rows.take (chunkSize / schema.rowSize) := by
    rw [List.take_eq_take_iff]
    omega
  refine ⟨records, hholds, ?_⟩
  rw [answerFrom_ofContent hplan, hcount, Row.slices_flatten hlengths (Nat.min_le_left ..), htake,
    hrecords, hlength]
  by_cases hmore : chunkSize < given.length * schema.rowSize
  · have hfull : min rows.length (chunkSize / schema.rowSize) = chunkSize / schema.rowSize := by
      rw [← hrows.length_eq]
      exact Nat.min_eq_right (Nat.le_of_lt ((Nat.div_lt_iff_lt_mul hsize).mpr hmore))
    rw [hfull]
    rfl
  · rw [if_neg hmore, if_neg hmore]
    rfl

end Selection

theorem Files.firstChunk_of_find {tree : FileTree} {root table : String} {content : Bytes}
    (hname : Path.isFileName table = true)
    (hfile : tree.find (Path.join root table) = .ok (.file content)) {chunkSize : Nat}
    (hchunk : chunkSize ≤ maxChunkSize) :
    firstChunk tree root chunkSize table = .ok (Chunk.ofContent content 0 chunkSize) := by
  have hpath : Path.ofTable root table = .ok (Path.join root table) := ofTable_eq_ok.mpr ⟨hname, rfl⟩
  have hword : chunkSize < Word.max := Nat.lt_of_le_of_lt hchunk (by decide)
  rw [firstChunk, (Storage.Keeps.files hpath hfile).readOnce_run (by decide) (.inr (by omega))]

namespace Database

variable {m : Type → Type} [Monad m]

/-- Appends values to tables, one list of them after the other. -/
def appendAll (database : Database m) (calls : List (String × List (String × Value))) :
    m (List (Outcome Unit)) :=
  calls.mapM fun call => database.append call.1 call.2

/-- The values of the appends to a table that have succeeded. -/
def appendedTo (table : String) (calls : List (String × List (String × Value)))
    (outcomes : List (Outcome Unit)) : List (List (String × Value)) :=
  (calls.zip outcomes).filterMap fun (call, outcome) =>
    if call.1 = table ∧ outcome = .ok () then some call.2 else none

variable {config : Config} {catalog : Catalog} {tree after : FileTree} {table : String}
  {values : List (String × Value)} {schema : Schema}

theorem append_run (config : Config) (catalog : Catalog) (tree : FileTree) (table : String)
    (values : List (String × Value)) :
    ((Database.mk FileTree.disk config catalog).append table values).run tree =
      match (do Row.encode (← catalog.resolve table) values) with
      | .error e => (.error e, tree)
      | .ok row => (Files.appendRow ⟨FileTree.disk, config.databaseDir⟩ table row).run tree := by
  rw [append]
  change StateT.run (match (do Row.encode (← catalog.resolve table) values : Outcome Bytes) with
    | .error e => return .error e
    | .ok row => Files.appendRow ⟨FileTree.disk, config.databaseDir⟩ table row) tree = _
  cases (do Row.encode (← catalog.resolve table) values : Outcome Bytes) <;> rfl

theorem append_eq_ok
    (happend : ((Database.mk FileTree.disk config catalog).append table values).run tree =
      (.ok (), after)) :
    ∃ schema row, catalog.resolve table = .ok schema ∧ Row.encode schema values = .ok row ∧
      (Files.appendRow ⟨FileTree.disk, config.databaseDir⟩ table row).run tree = (.ok (), after) := by
  rw [append_run] at happend
  split at happend
  · cases happend
  next row hrow =>
    obtain ⟨schema, hschema, hencode⟩ := Outcome.bind_eq_ok.mp hrow
    exact ⟨schema, row, hschema, hencode, happend⟩

/-- An append that fails adds no bytes to any file. -/
theorem onlyMakes_of_append {e : Error}
    (hfails : ((Database.mk FileTree.disk config catalog).append table values).run tree =
      (.error e, after)) : tree.OnlyMakes after := by
  rw [append_run] at hfails
  split at hfails
  · cases hfails
    exact .refl tree
  · exact Files.onlyMakes_of_appendRow hfails

theorem appendedTo_cons (table : String) (call : String × List (String × Value))
    (calls : List (String × List (String × Value))) (outcome : Outcome Unit)
    (outcomes : List (Outcome Unit)) :
    appendedTo table (call :: calls) (outcome :: outcomes) =
      if call.1 = table ∧ outcome = .ok () then call.2 :: appendedTo table calls outcomes
      else appendedTo table calls outcomes := by
  unfold appendedTo
  rw [List.zip_cons_cons, List.filterMap_cons]
  by_cases happended : call.1 = table ∧ outcome = .ok ()
  · simp only [if_pos happended]
  · simp only [if_neg happended]

/-- The file of a table holds a row for every append to the table that has succeeded,
in the order of the appends and behind the rows it had. -/
theorem stores_of_appendAll (hschema : catalog.resolve table = .ok schema)
    (hname : Path.isFileName table = true) {rows : List Bytes}
    (hstores : tree.Stores (config.tablePath table) rows)
    {calls : List (String × List (String × Value))} {outcomes : List (Outcome Unit)}
    (hrun : ((Database.mk FileTree.disk config catalog).appendAll calls).run tree =
      (outcomes, after)) :
    ∃ written, List.Forall₂ (fun values row => Row.encode schema values = .ok row)
        (appendedTo table calls outcomes) written ∧
      after.Stores (config.tablePath table) (rows ++ written) := by
  -- The rows so far are general: each append to the table makes them one more.
  induction calls generalizing tree rows outcomes with
  | nil =>
      cases hrun
      refine ⟨[], .nil, ?_⟩
      rwa [List.append_nil]
  | cons call calls ih =>
      obtain ⟨other, values⟩ := call
      rw [appendAll, mapM_run_cons] at hrun
      rcases hcall : ((Database.mk FileTree.disk config catalog).append other values).run tree
        with ⟨outcome, next⟩
      simp only [hcall] at hrun
      cases hrun
      rw [appendedTo_cons]
      cases outcome with
      | error e =>
          -- The files are as they were before the call.
          rw [if_neg fun h => nomatch h.2]
          exact ih (hstores.of_onlyMakes (onlyMakes_of_append hcall)) rfl
      | ok done =>
          obtain ⟨otherSchema, row, hother, hencode, happend⟩ := append_eq_ok hcall
          by_cases htable : other = table
          · subst htable
            rw [hschema] at hother
            cases hother
            obtain ⟨written, hwritten, hafter⟩ := ih (Files.stores_of_appendRow hstores happend) rfl
            rw [if_pos ⟨rfl, rfl⟩]
            refine ⟨row :: written, .cons hencode hwritten, ?_⟩
            rwa [List.append_assoc] at hafter
          · rw [if_neg fun h => htable h.1]
            exact ih (Files.stores_of_appendRow_other hstores hname htable happend) rfl

/-- A script is answered from the first chunks of the table files. -/
theorem execute_run (config : Config) (catalog : Catalog) (tree : FileTree) (script : String) :
    ((Database.mk FileTree.disk config catalog).execute script).run tree =
      (match Script.parse script with
        | .error e => .error (.parse e)
        | .ok statements => statements.mapM (Statement.answerFrom catalog config.chunkSize
            (Files.firstChunk tree config.databaseDir config.chunkSize)), tree) :=
  Engine.run_run (Files.firstChunk_run tree config.databaseDir catalog config.chunkSize) script

theorem warnedExecute_run (config : Config) (catalog : Catalog) (tree : FileTree)
    (script : String) :
    ((Database.mk FileTree.disk config catalog).warnedExecute script).run tree =
      (match Script.parse script with
        | .error e => .failed (.parse e)
        | .ok statements => Statement.warnedAnswers config.chunkSize
          (Statement.answerFrom catalog config.chunkSize
            (Files.firstChunk tree config.databaseDir config.chunkSize)) statements, tree) :=
  Engine.warnedRun_run (Files.firstChunk_run tree config.databaseDir catalog config.chunkSize)
    script

theorem query_run (config : Config) (catalog : Catalog) (tree : FileTree) {script : String}
    {statement : Statement} (hparse : Script.parse script = .ok [statement]) :
    ((Database.mk FileTree.disk config catalog).query script).run tree =
      (statement.answerFrom catalog config.chunkSize
        (Files.firstChunk tree config.databaseDir config.chunkSize), tree) := by
  have hrun := execute_run config catalog tree script
  rw [hparse] at hrun
  dsimp only at hrun
  rw [query, run_bind_of_run hrun, List.mapM_cons, List.mapM_nil]
  cases statement.answerFrom catalog config.chunkSize
    (Files.firstChunk tree config.databaseDir config.chunkSize) <;> rfl

/-- Of all values that have been appended to a table which had no file, a query of the
table returns those that fit into one chunk, in the order of the appends and in their
normal form. The result says whether there are more, and where they start. -/
theorem query_appended (hvalid : config.validate = .ok ())
    (hschema : catalog.resolve table = .ok schema) (hsize : 0 < schema.rowSize)
    (hname : Path.isFileName table = true) (hquote : '\'' ∉ table.toList)
    (hdelimiter : delimiter ∉ table.toList) (hline : '\n' ∉ table.toList)
    (hvacant : tree.Vacant (config.tablePath table))
    {calls : List (String × List (String × Value))} {outcomes : List (Outcome Unit)}
    (hrun : ((Database.mk FileTree.disk config catalog).appendAll calls).run tree =
      (outcomes, after))
    (hsome : 1 ≤ (appendedTo table calls outcomes).length) :
    ∃ result,
      ((Database.mk FileTree.disk config catalog).query (Script.selectAll table)).run after =
        (.ok result, after) ∧
      List.Forall₂ (fun values record => Record.Holds record schema values)
        ((appendedTo table calls outcomes).take (config.chunkSize / schema.rowSize)) result.rows ∧
      (result.truncated = true ↔
        config.chunkSize < (appendedTo table calls outcomes).length * schema.rowSize) ∧
      result.resumeOffset =
        if result.truncated then some (config.chunkSize / schema.rowSize * schema.rowSize)
        else none := by
  have hchunk : 0 < config.chunkSize ∧ config.chunkSize ≤ maxChunkSize := by
    obtain ⟨checked, hcheck, -⟩ := Outcome.bind_eq_ok.mp hvalid
    exact checkChunkSize_eq_ok_iff.mp hcheck
  have hempty : tree.Stores (config.tablePath table) [] := by
    apply FileTree.Stores.missing
    intro place content hlocate
    rw [hvacant place hlocate]
    exact nofun
  obtain ⟨written, hwritten, hstores⟩ := stores_of_appendAll hschema hname hempty hrun
  rw [List.nil_append] at hstores
  have hfile : after.find (config.tablePath table) = .ok (.file written.flatten) := by
    cases hstores with
    | missing =>
        rw [hwritten.length_eq] at hsome
        cases hsome
    | file hfile => exact hfile
  obtain ⟨records, hholds, hanswer⟩ := Selection.answerFrom_written table hchunk hsize hwritten
  rw [query_run config catalog after (Script.parse_selectAll hquote hdelimiter hline),
    Statement.answerFrom, hschema]
  change ∃ result, (Selection.answerFrom _ _ _ (Files.firstChunk _ _ _ table), after) = _ ∧ _
  rw [Files.firstChunk_of_find hname hfile hchunk.2, hanswer]
  refine ⟨_, rfl, hholds, decide_eq_true_iff, ?_⟩
  simp only [decide_eq_true_iff]

def labelCatalog : Catalog where
  tables := [labelTable, Catalog.userTable]
  sorted := by decide

/-- A chunk holds two labels. -/
def labelConfig : Config := ⟨"data", "labels", 13, none⟩

/-- Labels that are too long, end in a zero character or are given twice, between
appends that fail and one to another table. -/
def labelCalls : List (String × List (String × Value)) :=
  [("Label", [("id", .integer 1), ("text", .text "aé")]), ("Label", [("id", .integer 2)]),
    ("User", [("id", .integer 7), ("age", .integer 30)]),
    ("Label", [("text", .text "b\x00"), ("id", .integer (-2)), ("id", .integer 9)]), ("Ghost", []),
    ("Label", [("id", .integer 3), ("text", .text "cc")])]

def labelRun : List (Outcome Unit) × FileTree :=
  ((Database.mk FileTree.disk labelConfig labelCatalog).appendAll labelCalls).run (FileTree.empty [])

theorem query_appended_labels :
    ∃ result,
      ((Database.mk FileTree.disk labelConfig labelCatalog).query (Script.selectAll "Label")).run
          labelRun.2 = (.ok result, labelRun.2) ∧
        List.Forall₂ (fun values record => Record.Holds record labelTable values)
          [[("id", .integer 1), ("text", .text "aé")],
            [("text", .text "b\x00"), ("id", .integer (-2)), ("id", .integer 9)]] result.rows ∧
        (result.truncated = true ↔ 13 < 3 * 6) ∧
        result.resumeOffset = if result.truncated then some 12 else none := by
  have happended : appendedTo "Label" labelCalls labelRun.1 =
      [[("id", .integer 1), ("text", .text "aé")],
        [("text", .text "b\x00"), ("id", .integer (-2)), ("id", .integer 9)],
        [("id", .integer 3), ("text", .text "cc")]] := by
    decide +kernel
  have hrun : labelRun = (labelRun.1, labelRun.2) := Prod.mk.eta.symm
  have hschema : labelCatalog.resolve "Label" = .ok labelTable := by decide
  have hvacant : (FileTree.empty []).Vacant (labelConfig.tablePath "Label") :=
    FileTree.vacant_empty (by decide)
  have hsome : 1 ≤ (appendedTo "Label" labelCalls labelRun.1).length := by
    rw [happended]
    decide
  have hvalid : labelConfig.validate = .ok () := by decide
  have hquery := query_appended hvalid hschema (by decide) (by decide) (by decide) (by decide)
    (by decide) hvacant hrun hsome
  rw [happended] at hquery
  exact hquery

end Database

end Tabular
