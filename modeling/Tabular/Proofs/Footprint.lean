import Tabular.Proofs.Appending
import Tabular.Proofs.Database
import Tabular.Proofs.Engine
import Tabular.Proofs.Refusal

/-! # What calls leave behind

The calls of a database change nothing but the files of the tables that rows are
appended to. A row adds as many bytes as the schema says, and an append that is refused
for what it asks leaves the whole tree as it was, so that the files of the tables hold
whole rows at all times.
-/

namespace Tabular

namespace FileTree

variable {tree made : FileTree} {place : FilePlace} {content : Bytes}

/-- The bytes of the file at a place, if there is one. -/
def content? (tree : FileTree) (place : FilePlace) : Option Bytes :=
  match tree.node? place with
  | some (.file content) => some content
  | _ => none

theorem content?_eq_some : tree.content? place = some content ↔
    tree.node? place = some (.file content) := by
  unfold content?
  split <;> simp_all

/-- Making directories makes no difference to any file. -/
theorem OnlyMakes.content? (hmakes : tree.OnlyMakes made) (place : FilePlace) :
    made.content? place = tree.content? place := by
  apply Option.ext
  intro content
  rw [content?_eq_some, content?_eq_some]
  exact hmakes.file

theorem content?_put_self (tree : FileTree) (place : FilePlace) (content : Bytes) :
    (tree.put place (.file content)).content? place = some content :=
  content?_eq_some.mpr (node?_put_self ..)

theorem content?_put_of_ne {other : FilePlace} (hother : other ≠ place) (content : Bytes) :
    (tree.put place (.file content)).content? other = tree.content? other := by
  rw [FileTree.content?, node?_put_of_ne hother]
  rfl

/-- What bytes are added to is the content that was there, if any. -/
theorem content?_of_appendable
    (hnode : tree.node? place = some (.file content) ∨ tree.node? place = none ∧ content = []) :
    (tree.content? place).getD [] = content := by
  rcases hnode with hfile | ⟨hnone, rfl⟩
  · rw [content?_eq_some.mpr hfile]
    rfl
  · rw [FileTree.content?, hnone]
    rfl

/-- The file of every table of the catalog is absent or holds whole rows. -/
def Aligned (tree : FileTree) (config : Config) (catalog : Catalog) : Prop :=
  ∀ schema ∈ catalog.tables, Path.isFileName schema.name = true → ∀ place content,
    tree.locate (config.tablePath schema.name) = .ok place → tree.content? place = some content →
      schema.rowSize ∣ content.length

end FileTree

namespace Files

/-- What adding a row to a table leaves of a tree. -/
inductive Leaves (root : String) (tree : FileTree) (table : String) (row : Bytes) :
    Outcome Unit → FileTree → Prop
  /-- A table without a file's name is rejected before anything happens. -/
  | rejected (hname : Path.isFileName table = false) :
    Leaves root tree table row (.error (.invalidArgument (.tableFileName table))) tree
  /-- If the disk fails, nothing happens but that directories are made. -/
  | faulted {fault : DiskFault} {after : FileTree} (hname : Path.isFileName table = true)
    (hmakes : tree.OnlyMakes after) : Leaves root tree table row (.error (.io fault)) after
  /-- The row is added to what the file of the table holds, or makes that file. -/
  | added {place : FilePlace} {after : FileTree} (hname : Path.isFileName table = true)
    (hextends : tree.Extends after) (hplace : after.resolve (Path.join root table) = .ok place)
    (hcontent : after.content? place = some ((tree.content? place).getD [] ++ row))
    (hothers : ∀ other, other ≠ place → after.content? other = tree.content? other) :
    Leaves root tree table row (.ok ()) after

variable {tree after : FileTree} {root table : String} {row : Bytes} {outcome : Outcome Unit}

theorem ofTable_eq_error {e : Error} :
    Path.ofTable root table = .error e ↔
      Path.isFileName table = false ∧ e = .invalidArgument (.tableFileName table) := by
  unfold Path.ofTable
  split
  next hname => simp [hname]
  next hname =>
    rw [Except.error.injEq, ← Bool.not_eq_true]
    exact ⟨fun he => ⟨hname, he.symm⟩, fun he => he.2.symm⟩

theorem appendRow_leaves
    (hrun : (appendRow ⟨FileTree.disk, root⟩ table row).run tree = (outcome, after)) :
    Leaves root tree table row outcome after := by
  rw [appendRow_run] at hrun
  split at hrun
  next hpath =>
    cases hrun
    obtain ⟨hname, rfl⟩ := ofTable_eq_error.mp hpath
    exact .rejected hname
  next hpath =>
    obtain ⟨hname, rfl⟩ := ofTable_eq_ok.mp hpath
    split at hrun
    next hmade =>
      cases hrun
      exact .faulted hname (FileTree.onlyMakes_of_makeDirectories hmade)
    next made hmade =>
      have hmakes := FileTree.onlyMakes_of_makeDirectories hmade
      split at hrun
      next =>
        cases hrun
        exact .faulted hname hmakes
      next happend =>
        cases hrun
        obtain ⟨place, content, hresolve, hnode, rfl⟩ := FileTree.append_eq_ok.mp happend
        have hextends := FileTree.extends_put (content ++ row)
          (FileTree.ne_directory_of_appendable hnode)
        refine .added hname (hmakes.extends.trans hextends) (hextends.resolve hresolve) ?_
          fun other hother => ?_
        · rw [FileTree.content?_put_self, ← hmakes.content?, FileTree.content?_of_appendable hnode]
        · rw [FileTree.content?_put_of_ne hother, hmakes.content?]

end Files

namespace Database

/-- What is asked of a database. -/
inductive Call
  | append (table : String) (values : List (String × Value))
  | execute (script : String)
  | query (script : String)
  | schema (table : String)

/-- What a database answers to a call. -/
inductive Answer
  | appended (outcome : Outcome Unit)
  | executed (outcome : Outcome (List QueryResult))
  | queried (outcome : Outcome QueryResult)
  | schema (outcome : Outcome Schema)

section Calls

variable {m : Type → Type} [Monad m]

def perform (database : Database m) : Call → m Answer
  | .append table values => return .appended (← database.append table values)
  | .execute script => return .executed (← database.execute script)
  | .query script => return .queried (← database.query script)
  | .schema table => return .schema (database.schema table)

/-- Answers calls one after the other. -/
def performAll (database : Database m) (calls : List Call) : m (List Answer) :=
  calls.mapM database.perform

end Calls

/-- What a call that gets an answer leaves of a tree. -/
inductive Call.Leaves (config : Config) (catalog : Catalog) (tree : FileTree) :
    Call → Answer → FileTree → Prop
  /-- An append that is refused leaves everything as it is. -/
  | refused {table : String} {values : List (String × Value)} {e : Error}
    (hrefused : catalog.Refuses table values) :
    Leaves config catalog tree (.append table values) (.appended (.error e)) tree
  /-- An append that the disk fails leaves all files as they are. -/
  | faulted {table : String} {values : List (String × Value)} {fault : DiskFault} {after : FileTree}
    (haccepted : ¬catalog.Refuses table values) (hcurrent : after.current = tree.current)
    (hfiles : ∀ place, after.content? place = tree.content? place) :
    Leaves config catalog tree (.append table values) (.appended (.error (.io fault))) after
  /-- An append that succeeds adds a row to the file of its table. -/
  | appended {table : String} {values : List (String × Value)} {schema : Schema} {row : Bytes}
    {place : FilePlace} {after : FileTree}
    (haccepted : ¬catalog.Refuses table values) (hschema : catalog.resolve table = .ok schema)
    (hencode : Row.encode schema values = .ok row) (hrow : row.length = schema.rowSize)
    (hcurrent : after.current = tree.current)
    (hplace : after.resolve (config.tablePath table) = .ok place)
    (hcontent : after.content? place = some ((tree.content? place).getD [] ++ row))
    (hothers : ∀ other, other ≠ place → after.content? other = tree.content? other) :
    Leaves config catalog tree (.append table values) (.appended (.ok ())) after
  | executed {script : String} {outcome : Outcome (List QueryResult)} :
    Leaves config catalog tree (.execute script) (.executed outcome) tree
  | queried {script : String} {outcome : Outcome QueryResult} :
    Leaves config catalog tree (.query script) (.queried outcome) tree
  | schema {table : String} {outcome : Outcome Schema} :
    Leaves config catalog tree (.schema table) (.schema outcome) tree

variable {config : Config} {catalog : Catalog} {tree after : FileTree}

/-- An append that is refused fails and changes nothing. -/
theorem append_of_refused (config : Config) (tree : FileTree) {table : String}
    {values : List (String × Value)} (hrefused : catalog.Refuses table values) :
    ∃ e, ((Database.mk FileTree.disk config catalog).append table values).run tree =
      (.error e, tree) := by
  rw [append_run]
  split
  next e hfails => exact ⟨e, rfl⟩
  next row hrow =>
    -- There is a row for a known table, so that it is the name of the file.
    obtain ⟨schema, hschema, hencode⟩ := Outcome.bind_eq_ok.mp hrow
    rw [Files.appendRow_run]
    split
    next e hpath => exact ⟨e, rfl⟩
    next path hpath =>
      have hname := (Files.ofTable_eq_ok.mp hpath).1
      exact absurd hrefused (Catalog.not_refuses_iff.mpr ⟨schema, row, hschema, hencode, hname⟩)

theorem append_leaves {table : String} {values : List (String × Value)} {outcome : Outcome Unit}
    (hrun : ((Database.mk FileTree.disk config catalog).append table values).run tree =
      (outcome, after)) :
    Call.Leaves config catalog tree (.append table values) (.appended outcome) after := by
  by_cases hrefused : catalog.Refuses table values
  · obtain ⟨e, hfails⟩ := append_of_refused config tree hrefused
    rw [hfails] at hrun
    cases hrun
    exact .refused hrefused
  · obtain ⟨schema, row, hschema, hencode, hname⟩ := Catalog.not_refuses_iff.mp hrefused
    rw [append_run, hschema] at hrun
    have hrow : (do Row.encode (← Except.ok schema) values : Outcome Bytes) = .ok row := hencode
    rw [hrow] at hrun
    cases Files.appendRow_leaves hrun with
    | rejected hrejected =>
        rw [hrejected] at hname
        cases hname
    | faulted hname hmakes => exact .faulted hrefused hmakes.current hmakes.content?
    | added hname hextends hplace hcontent hothers =>
        exact .appended hrefused hschema hencode (Row.length_of_encode hencode) hextends.current
          hplace hcontent hothers

theorem perform_leaves {call : Call} {answer : Answer}
    (hrun : ((Database.mk FileTree.disk config catalog).perform call).run tree = (answer, after)) :
    call.Leaves config catalog tree answer after := by
  cases call with
  | append table values =>
      rcases happend : ((Database.mk FileTree.disk config catalog).append table values).run tree
        with ⟨outcome, next⟩
      rw [perform, run_bind_of_run happend] at hrun
      cases hrun
      exact append_leaves happend
  | execute script =>
      rw [perform, run_bind_of_run (execute_run config catalog tree script)] at hrun
      cases hrun
      exact .executed
  | query script =>
      rw [perform, query, bind_assoc,
        run_bind_of_run (execute_run config catalog tree script)] at hrun
      cases hrun
      exact .queried
  | schema table =>
      cases hrun
      exact .schema

/-- Whole rows stay whole rows: one more row is behind them, or they are in the file of
another table. -/
theorem Call.Leaves.aligned {call : Call} {answer : Answer}
    (hleaves : call.Leaves config catalog tree answer after)
    (haligned : tree.Aligned config catalog) : after.Aligned config catalog := by
  cases hleaves with
  | refused hrefused => exact haligned
  | executed => exact haligned
  | queried => exact haligned
  | schema => exact haligned
  | faulted haccepted hcurrent hfiles =>
      intro schema hschema hname place content hlocate hcontent
      rw [FileTree.locate_congr hcurrent] at hlocate
      rw [hfiles] at hcontent
      exact haligned schema hschema hname place content hlocate hcontent
  | @appended table values schema row place after haccepted hschema hencode hrow hcurrent hplace
      hcontent hothers =>
      intro other hother hname otherPlace otherContent hlocate hotherContent
      have hbefore := FileTree.locate_congr hcurrent (config.tablePath other.name) ▸ hlocate
      have hpresent := FileTree.locate_of_resolve hplace
      by_cases hsame : other.name = table
      · subst hsame
        -- The table is the one that has one more row.
        rw [Catalog.resolve_of_mem hother] at hschema
        cases hschema
        rw [hpresent] at hlocate
        cases hlocate
        rw [hcontent] at hotherContent
        cases hotherContent
        rw [List.length_append, hrow]
        apply Nat.dvd_add ?_ (Nat.dvd_refl _)
        cases hold : tree.content? place with
        | none => exact Nat.dvd_zero _
        | some content => exact haligned schema hother hname place content hbefore hold
      · obtain ⟨-, -, -, -, htable⟩ := Catalog.not_refuses_iff.mp haccepted
        have hne := FileTree.locate_join_ne htable hname hsame hpresent hlocate
        rw [hothers otherPlace hne] at hotherContent
        exact haligned other hother hname otherPlace otherContent hbefore hotherContent

/-- Whatever calls there are, the files of the tables hold whole rows if they did. -/
theorem performAll_aligned (haligned : tree.Aligned config catalog) {calls : List Call}
    {answers : List Answer}
    (hrun : ((Database.mk FileTree.disk config catalog).performAll calls).run tree =
      (answers, after)) : after.Aligned config catalog := by
  induction calls generalizing tree answers with
  | nil =>
      cases hrun
      exact haligned
  | cons call calls ih =>
      rw [performAll, mapM_run_cons] at hrun
      rcases hcall : ((Database.mk FileTree.disk config catalog).perform call).run tree
        with ⟨answer, next⟩
      simp only [hcall] at hrun
      cases hrun
      exact ih ((perform_leaves hcall).aligned haligned) rfl

/-- After any calls, the next one changes no file but that of a table which it appends
to, and there it adds a row. The files of the tables hold whole rows if they did in the
beginning. -/
theorem performAll_leaves (config : Config) (catalog : Catalog) (start : FileTree)
    (calls : List Call) (call : Call) :
    let database := Database.mk FileTree.disk config catalog
    let tree := ((database.performAll calls).run start).2
    let step := (database.perform call).run tree
    call.Leaves config catalog tree step.1 step.2 ∧
      (start.Aligned config catalog → step.2.Aligned config catalog) := by
  intro database tree step
  have hleaves : call.Leaves config catalog tree step.1 step.2 := perform_leaves rfl
  have hrun : (database.performAll calls).run start =
      (((database.performAll calls).run start).1, tree) := rfl
  exact ⟨hleaves, fun haligned => hleaves.aligned (performAll_aligned haligned hrun)⟩

/-- A label of `ab` is in the file of its table, next to a file of no table. -/
def labelTree : FileTree :=
  (((((FileTree.empty []).put ["data"] .directory).put ["labels", "data"] .directory).put
    ["Label", "labels", "data"] (.file [1, 0, 0, 0, 97, 98])).put
    ["notes", "labels", "data"] (.file [1, 2, 3]))

/-- A row for a table without a file, one that is refused, and a query. -/
def mixedCalls : List Call :=
  [.append "User" [("id", .integer 7), ("age", .integer 30)],
    .append "Label" [("id", .integer 2)], .query "select * from Label"]

theorem performAll_leaves_labels :
    let database := Database.mk FileTree.disk labelConfig labelCatalog
    let tree := ((database.performAll mixedCalls).run labelTree).2
    let call := Call.append "Label" [("id", .integer 3), ("text", .text "cc")]
    let step := (database.perform call).run tree
    labelTree.Aligned labelConfig labelCatalog ∧
      call.Leaves labelConfig labelCatalog tree step.1 step.2 ∧
      step.2.Aligned labelConfig labelCatalog ∧
      step.2.content? ["User", "labels", "data"] = some [7, 0, 0, 0, 30, 0, 0, 0] ∧
      step.2.content? ["Label", "labels", "data"] =
        some [1, 0, 0, 0, 97, 98, 3, 0, 0, 0, 99, 99] ∧
      step.2.content? ["notes", "labels", "data"] = some [1, 2, 3] := by
  have haligned : labelTree.Aligned labelConfig labelCatalog := by
    intro schema hschema hname place content hlocate hcontent
    have hcases : schema = labelTable ∨ schema = Catalog.userTable := by
      simpa [labelCatalog] using hschema
    rcases hcases with rfl | rfl
    · have hplace : labelTree.locate (labelConfig.tablePath "Label") =
          .ok ["Label", "labels", "data"] := by rfl
      cases hplace.symm.trans hlocate
      cases hcontent
      decide
    · have hplace : labelTree.locate (labelConfig.tablePath "User") =
          .ok ["User", "labels", "data"] := by rfl
      cases hplace.symm.trans hlocate
      cases hcontent
  intro database tree call step
  obtain ⟨hleaves, hafter⟩ :=
    performAll_leaves labelConfig labelCatalog labelTree mixedCalls call
  exact ⟨haligned, hleaves, hafter haligned, by decide +kernel, by decide +kernel,
    by decide +kernel⟩

end Database

end Tabular
