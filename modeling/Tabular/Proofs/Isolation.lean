import Tabular.Proofs.Interchange
import Tabular.Proofs.Location

/-! # Tables that keep apart

The files of two tables are different files directly below one directory, whatever the
path of that directory is. A row that is added to a table is therefore behind the rows that
were added to that table before, and no other file tells of it.
-/

namespace Tabular

/-- The names of tables are ordinary parts of paths. The path of a table's file is that of
the directory with the name behind it, after one slash. -/
theorem Path.ofTable_eq_ok_iff {root table path : String} :
    ofTable root table = .ok path ↔ IsOrdinary table ∧
      path = if root.toList = [] ∨ root.toList.getLast? = some '/' then root ++ table
        else root ++ "/" ++ table := by
  rw [Files.ofTable_eq_ok, isFileName_iff]
  apply and_congr_right
  intro hordinary
  rw [join_of_notMem hordinary.no_slash]
  exact eq_comm

theorem Path.parts_ofTable {root table path : String} (hpath : ofTable root table = .ok path) :
    parts path = above root ++ [table] ∧ steps path = steps root ++ [table] := by
  obtain ⟨hname, rfl⟩ := Files.ofTable_eq_ok.mp hpath
  have hslash := slash_notMem_of_isFileName hname
  obtain ⟨hstays, -⟩ := not_stays_of_isFileName hname
  refine ⟨parts_join hslash root, ?_⟩
  rw [steps_join hslash, hstays]
  rfl

theorem Path.ofTable_inj {root table other path : String} (hpath : ofTable root table = .ok path)
    (hother : ofTable root other = .ok path) : table = other := by
  obtain ⟨hparts, -⟩ := parts_ofTable hpath
  obtain ⟨hotherParts, -⟩ := parts_ofTable hother
  rw [hparts] at hotherParts
  exact List.singleton_inj.mp (List.append_cancel_left hotherParts)

namespace FileTree

variable {tree after : FileTree} {path root table other : String} {row : Bytes}

theorem exists_append {place : FilePlace} (hresolve : tree.resolve path = .ok place)
    (hplace : tree.node? place ≠ some .directory) (bytes : Bytes) :
    ∃ after, tree.append path bytes = .ok after := by
  cases hnode : tree.node? place with
  | none => exact ⟨_, append_eq_ok.mpr ⟨place, [], hresolve, .inr ⟨hnode, rfl⟩, rfl⟩⟩
  | some node =>
      cases node with
      | file content => exact ⟨_, append_eq_ok.mpr ⟨place, content, hresolve, .inl hnode, rfl⟩⟩
      | directory => exact absurd hnode hplace

/-- A table whose place can be reached takes every row. -/
theorem appendRow_of_place (hname : Path.isFileName table = true) {made : FileTree}
    (hmade : tree.makeDirectories (Path.trimmed root) = (.ok (), made)) {place : FilePlace}
    (hresolve : made.resolve (Path.join root table) = .ok place)
    (hplace : made.node? place ≠ some .directory) (row : Bytes) :
    ((Files.appendRow ⟨disk, root⟩ table row).run tree).1 = .ok () := by
  obtain ⟨after, happend⟩ := exists_append hresolve hplace row
  rw [Files.appendRow_eq_ok.mpr ⟨hname, made, hmade, happend⟩]

theorem Accepts.appendRow (haccepts : tree.Accepts root table) (row : Bytes) :
    ((Files.appendRow ⟨disk, root⟩ table row).run tree).1 = .ok () := by
  obtain ⟨hname, made, hmade, place, hresolve, hplace, -⟩ := haccepts.place
  exact appendRow_of_place hname hmade hresolve hplace row

/-- A table that takes rows goes on to do so, whatever rows are added to any tables. -/
theorem Accepts.of_appendRow (haccepts : tree.Accepts root table) {outcome : Outcome Unit}
    (hrun : (Files.appendRow ⟨disk, root⟩ other row).run tree = (outcome, after)) :
    after.Accepts root table := by
  obtain ⟨hname, made, hmade, place, hresolve, hplace, -⟩ := haccepts.place
  have hlater {later : FileTree} (hextends : made.Extends later)
      (hfree : later.node? place ≠ some .directory) : later.Accepts root table :=
    appendRow_of_place hname (makeDirectories_again hmade hextends) (hextends.resolve hresolve)
      hfree []
  rw [Files.appendRow_run] at hrun
  split at hrun
  next =>
    cases hrun
    exact haccepts
  next path _ =>
    -- The directories of the root are made whatever the table is.
    rw [hmade] at hrun
    dsimp only at hrun
    split at hrun
    next =>
      cases hrun
      exact hlater (.refl _) hplace
    next happend =>
      cases hrun
      obtain ⟨file, content, -, hnode, rfl⟩ := append_eq_ok.mp happend
      refine hlater (extends_put _ (ne_directory_of_appendable hnode)) ?_
      by_cases hsame : place = file
      · rw [hsame, node?_put_self]
        nofun
      · rwa [node?_put_of_ne hsame]

end FileTree

namespace Files

variable {m : Type → Type} [Monad m]

/-- Adds rows to tables, one after the other. -/
def appendAll (files : Files m) (additions : List (String × Bytes)) : m (List (Outcome Unit)) :=
  additions.mapM fun addition => files.appendRow addition.1 addition.2

/-- The additions that have succeeded. -/
def succeeded (additions : List (String × Bytes)) (outcomes : List (Outcome Unit)) :
    List (String × Bytes) :=
  ((additions.zip outcomes).filter (·.2 = .ok ())).map (·.1)

/-- The rows that are added to a table. -/
def rowsOf (table : String) (additions : List (String × Bytes)) : List Bytes :=
  (additions.filter (·.1 = table)).map (·.2)

/-- The content of a file with rows put behind it. Where no file is, rows make one. -/
def withRows (content? : Option Bytes) (rows : List Bytes) : Option Bytes :=
  if rows = [] then content? else some (content?.getD [] ++ rows.flatten)

theorem rowsOf_cons (table : String) (addition : String × Bytes)
    (additions : List (String × Bytes)) :
    rowsOf table (addition :: additions) =
      if addition.1 = table then addition.2 :: rowsOf table additions
      else rowsOf table additions := by
  by_cases htable : addition.1 = table
  · simp [rowsOf, htable]
  · simp [rowsOf, htable]

/-- The first addition is one of the rows of a table if it is to the table and succeeds. -/
theorem rowsOf_succeeded_cons (table : String) (addition : String × Bytes)
    (additions : List (String × Bytes)) (outcome : Outcome Unit)
    (outcomes : List (Outcome Unit)) :
    rowsOf table (succeeded (addition :: additions) (outcome :: outcomes)) =
      if outcome = .ok () ∧ addition.1 = table then
        addition.2 :: rowsOf table (succeeded additions outcomes)
      else rowsOf table (succeeded additions outcomes) := by
  cases outcome with
  | error e => rfl
  | ok done =>
      have hsucceeded : succeeded (addition :: additions) (.ok done :: outcomes) =
          addition :: succeeded additions outcomes := rfl
      simp only [hsucceeded, rowsOf_cons, true_and]

/-- One row more is the first of the rows that follow. -/
theorem withRows_cons (content? : Option Bytes) (row : Bytes) (rows : List Bytes) :
    withRows content? (row :: rows) = withRows (some (content?.getD [] ++ row)) rows := by
  unfold withRows
  by_cases hrows : rows = []
  · simp [hrows]
  · simp [hrows]

variable {tree after : FileTree} {root table path : String} {place : FilePlace}
  {additions : List (String × Bytes)} {outcomes : List (Outcome Unit)}

/-- A run of additions is the first one of them and a run of the others. -/
theorem appendAll_cons {addition : String × Bytes}
    (hrun : (appendAll ⟨FileTree.disk, root⟩ (addition :: additions)).run tree =
      (outcomes, after)) :
    ∃ outcome rest next,
      (appendRow ⟨FileTree.disk, root⟩ addition.1 addition.2).run tree = (outcome, next) ∧
        (appendAll ⟨FileTree.disk, root⟩ additions).run next = (rest, after) ∧
        outcomes = outcome :: rest := by
  rw [appendAll, mapM_run_cons] at hrun
  cases hrun
  exact ⟨_, _, _, rfl, rfl, rfl⟩

theorem Leaves.extends {row : Bytes} {outcome : Outcome Unit}
    (hleaves : Leaves root tree table row outcome after) : tree.Extends after := by
  cases hleaves with
  | rejected => exact .refl tree
  | faulted hname hmakes => exact hmakes.extends
  | added hname hextends => exact hextends

namespace Leaves

variable {other : String} {row : Bytes} {outcome : Outcome Unit}

/-- The file of a table is changed only by a row that is added to this table. -/
theorem content?_eq (hleaves : Leaves root tree other row outcome after)
    (hname : Path.isFileName table = true)
    (hlocate : tree.locate (Path.join root table) = .ok place) :
    after.content? place =
      if outcome = .ok () ∧ other = table then some ((tree.content? place).getD [] ++ row)
      else tree.content? place := by
  cases hleaves with
  | rejected => rfl
  | faulted hother hmakes => exact hmakes.content? place
  | @added file _ hother hextends hplace hcontent hothers =>
      have hfile := FileTree.locate_of_resolve hplace
      rw [FileTree.locate_congr hextends.current] at hfile
      by_cases hsame : other = table
      · subst hsame
        rw [hlocate] at hfile
        cases hfile
        rw [if_pos ⟨rfl, rfl⟩, hcontent]
      · have hne := FileTree.locate_join_ne hother hname (Ne.symm hsame) hfile hlocate
        rw [if_neg fun hadded => hsame hadded.2, hothers place hne]

theorem exists_place (hleaves : Leaves root tree table row (.ok ()) after) :
    ∃ place, after.resolve (Path.join root table) = .ok place := by
  cases hleaves with
  | @added place _ hname hextends hplace hcontent hothers => exact ⟨place, hplace⟩

end Leaves

theorem extends_of_appendAll
    (hrun : (appendAll ⟨FileTree.disk, root⟩ additions).run tree = (outcomes, after)) :
    tree.Extends after := by
  induction additions generalizing tree outcomes with
  | nil =>
      cases hrun
      exact .refl _
  | cons addition additions ih =>
      obtain ⟨outcome, rest, next, hfirst, hrest, rfl⟩ := appendAll_cons hrun
      exact (appendRow_leaves hfirst).extends.trans (ih hrest)

/-- The file of a table holds what it held before and, behind it, the rows that have been
added to the table since. -/
theorem content?_of_appendAll (hname : Path.isFileName table = true)
    (hlocate : tree.locate (Path.join root table) = .ok place)
    (hrun : (appendAll ⟨FileTree.disk, root⟩ additions).run tree = (outcomes, after)) :
    after.content? place =
      withRows (tree.content? place) (rowsOf table (succeeded additions outcomes)) := by
  induction additions generalizing tree outcomes with
  | nil =>
      cases hrun
      rfl
  | cons addition additions ih =>
      obtain ⟨outcome, rest, next, hfirst, hrest, rfl⟩ := appendAll_cons hrun
      have hleaves := appendRow_leaves hfirst
      have hnext := ih ((FileTree.locate_congr hleaves.extends.current _).trans hlocate) hrest
      rw [hnext, hleaves.content?_eq hname hlocate, rowsOf_succeeded_cons]
      by_cases hadded : outcome = .ok () ∧ addition.1 = table
      · rw [if_pos hadded, if_pos hadded, withRows_cons]
      · rw [if_neg hadded, if_neg hadded]

/-- A table to which a row has been added is found at the place that its path names. -/
theorem resolve_of_appendAll
    (hrun : (appendAll ⟨FileTree.disk, root⟩ additions).run tree = (outcomes, after))
    (hrows : rowsOf table (succeeded additions outcomes) ≠ []) :
    ∃ place, tree.locate (Path.join root table) = .ok place ∧
      after.resolve (Path.join root table) = .ok place := by
  induction additions generalizing tree outcomes with
  | nil => exact absurd rfl hrows
  | cons addition additions ih =>
      obtain ⟨outcome, rest, next, hfirst, hrest, rfl⟩ := appendAll_cons hrun
      have hleaves := appendRow_leaves hfirst
      rw [← FileTree.locate_congr hleaves.extends.current]
      by_cases hadded : outcome = .ok () ∧ addition.1 = table
      · obtain ⟨rfl, rfl⟩ := hadded
        obtain ⟨place, hplace⟩ := hleaves.exists_place
        exact ⟨place, FileTree.locate_of_resolve hplace,
          (extends_of_appendAll hrest).resolve hplace⟩
      · rw [rowsOf_succeeded_cons, if_neg hadded] at hrows
        exact ih hrest hrows

/-- A file that is not one of a table is left alone: all that changes is below the root. -/
theorem exists_table_of_appendAll
    (hrun : (appendAll ⟨FileTree.disk, root⟩ additions).run tree = (outcomes, after))
    (hchanged : after.content? place ≠ tree.content? place) :
    ∃ table directory, Path.IsOrdinary table ∧ tree.locate root = .ok directory ∧
      place = table :: directory := by
  induction additions generalizing tree outcomes with
  | nil =>
      cases hrun
      exact absurd rfl hchanged
  | cons addition additions ih =>
      obtain ⟨outcome, rest, next, hfirst, hrest, rfl⟩ := appendAll_cons hrun
      by_cases hlater : after.content? place = next.content? place
      · rw [hlater] at hchanged
        cases hpath : Path.ofTable root addition.1 with
        | error e =>
            rw [appendRow_run, hpath] at hfirst
            cases hfirst
            exact absurd rfl hchanged
        | ok path =>
            have hlocate := locate_of_content?_ne hpath hfirst hchanged
            obtain ⟨hname, rfl⟩ := ofTable_eq_ok.mp hpath
            obtain ⟨directory, hdirectory, rfl⟩ := FileTree.locate_join hname hlocate
            exact ⟨addition.1, directory, Path.isFileName_iff.mp hname, hdirectory, rfl⟩
      · rw [← FileTree.locate_congr (appendRow_leaves hfirst).extends.current]
        exact ih hrest hlater

/-- A table that takes rows has all rows that are added to it. -/
theorem rowsOf_succeeded (haccepts : tree.Accepts root table)
    (hrun : (appendAll ⟨FileTree.disk, root⟩ additions).run tree = (outcomes, after)) :
    rowsOf table (succeeded additions outcomes) = rowsOf table additions := by
  induction additions generalizing tree outcomes with
  | nil =>
      cases hrun
      rfl
  | cons addition additions ih =>
      obtain ⟨outcome, rest, next, hfirst, hrest, rfl⟩ := appendAll_cons hrun
      rw [rowsOf_succeeded_cons, rowsOf_cons, ih (haccepts.of_appendRow hfirst) hrest]
      by_cases htable : addition.1 = table
      · subst htable
        have hok := haccepts.appendRow addition.2
        rw [hfirst] at hok
        rw [if_pos ⟨hok, rfl⟩, if_pos rfl]
      · rw [if_neg fun hadded => htable hadded.2, if_neg htable]

/-- Additions to tables without a file's name make no difference to the others. -/
theorem appendAll_filter
    (hrun : (appendAll ⟨FileTree.disk, root⟩ additions).run tree = (outcomes, after)) :
    ((appendAll ⟨FileTree.disk, root⟩ (additions.filter fun addition =>
      Path.isFileName addition.1)).run tree).2 = after := by
  induction additions generalizing tree outcomes with
  | nil =>
      cases hrun
      rfl
  | cons addition additions ih =>
      obtain ⟨outcome, rest, next, hfirst, hrest, rfl⟩ := appendAll_cons hrun
      have hnext := ih hrest
      rw [List.filter_cons]
      split
      next => rw [appendAll, mapM_run_cons, hfirst, ← hnext, appendAll]
      next hname =>
        rw [Bool.not_eq_true] at hname
        rw [appendRow_run, ofTable_eq_error.mpr ⟨hname, rfl⟩] at hfirst
        cases hfirst
        exact hnext

/-- Tables keep apart, whatever the path of their directory is. The path of a table's file is
that path with the name of the table as one more part, and it is so in a database as well. No
two tables have the same path. However rows are added to tables, the file of each table holds
what it held before and behind it its own rows in order: those that were added successfully,
and that is all of them if the disk takes rows for the table. Nothing is changed but files of
tables in the directory, and nothing at all by a table without a file's name. -/
theorem tables_keep_apart (root : String) :
    (∀ table path, Path.ofTable root table = .ok path ↔ Path.IsOrdinary table ∧
      path = if root.toList = [] ∨ root.toList.getLast? = some '/' then root ++ table
        else root ++ "/" ++ table) ∧
    (∀ table path, Path.ofTable root table = .ok path →
      Path.parts path = Path.above root ++ [table] ∧
        Path.steps path = Path.steps root ++ [table] ∧
        (∀ other, Path.ofTable root other = .ok path → table = other) ∧
        ∀ database : Database (StateM FileTree), database.files.root = root →
          path = database.config.tablePath table) ∧
    (∀ table row, ¬Path.IsOrdinary table → ∀ tree,
      (appendRow ⟨FileTree.disk, root⟩ table row).run tree =
        (.error (.invalidArgument (.tableFileName table)), tree)) ∧
    ∀ additions tree outcomes after,
      (appendAll ⟨FileTree.disk, root⟩ additions).run tree = (outcomes, after) →
      (∀ table path, Path.ofTable root table = .ok path →
        (∀ place, tree.locate path = .ok place → after.content? place =
          withRows (tree.content? place) (rowsOf table (succeeded additions outcomes))) ∧
        (rowsOf table (succeeded additions outcomes) ≠ [] →
          ∃ place, tree.locate path = .ok place ∧ after.resolve path = .ok place) ∧
        (tree.Accepts root table →
          rowsOf table (succeeded additions outcomes) = rowsOf table additions)) ∧
      (∀ place, after.content? place ≠ tree.content? place →
        ∃ table directory, Path.IsOrdinary table ∧ tree.locate root = .ok directory ∧
          place = table :: directory) ∧
      ((appendAll ⟨FileTree.disk, root⟩ (additions.filter fun addition =>
        Path.isFileName addition.1)).run tree).2 = after := by
  refine ⟨fun table path => Path.ofTable_eq_ok_iff, fun table path hpath => ?_,
    fun table row hrejected tree => ?_, fun additions tree outcomes after hrun => ?_⟩
  · obtain ⟨hparts, hsteps⟩ := Path.parts_ofTable hpath
    refine ⟨hparts, hsteps, fun other => Path.ofTable_inj hpath, ?_⟩
    rintro database rfl
    exact (ofTable_eq_ok.mp hpath).2.symm
  · rw [← Path.isFileName_iff, Bool.not_eq_true] at hrejected
    rw [appendRow_run, ofTable_eq_error.mpr ⟨hrejected, rfl⟩]
  · refine ⟨fun table path hpath => ?_, fun place => exists_table_of_appendAll hrun,
      appendAll_filter hrun⟩
    obtain ⟨hname, rfl⟩ := ofTable_eq_ok.mp hpath
    exact ⟨fun place hlocate => content?_of_appendAll hname hlocate hrun,
      resolve_of_appendAll hrun, fun haccepts => rowsOf_succeeded haccepts hrun⟩

/-- Rows for two tables in turn, and one for a table that would be above them. -/
def mixedAdditions : List (String × Bytes) :=
  [("a", [1, 2]), ("b", [3]), ("..", [4]), ("a", [5])]

theorem tables_keep_apart_mixed :
    let run := (appendAll ⟨FileTree.disk, "data/./"⟩ mixedAdditions).run (FileTree.empty [])
    Path.ofTable "data/./" "a" = .ok "data/./a" ∧
      Path.ofTable "data/./" ".." = .error (.invalidArgument (.tableFileName "..")) ∧
      Path.steps "data/./a" = ["data", "a"] ∧
      (FileTree.empty []).Accepts "data/./" "a" ∧
      run.2.content? ["a", "data"] = some [1, 2, 5] ∧
      run.2.content? ["b", "data"] = some [3] ∧
      ((appendAll ⟨FileTree.disk, "data/./"⟩ (mixedAdditions.filter fun addition =>
        Path.isFileName addition.1)).run (FileTree.empty [])).2 = run.2 := by
  intro run
  obtain ⟨-, hpaths, -, hruns⟩ := tables_keep_apart "data/./"
  have hpath : Path.ofTable "data/./" "a" = .ok "data/./a" := by decide
  have hother : Path.ofTable "data/./" "b" = .ok "data/./b" := by decide
  have haccepts : ∀ table, table = "a" ∨ table = "b" →
      (FileTree.empty []).Accepts "data/./" table := by
    unfold FileTree.Accepts
    rintro table (rfl | rfl)
    · decide +kernel
    · decide +kernel
  obtain ⟨hcontents, -, hfilter⟩ := hruns mixedAdditions (FileTree.empty []) _ _ Prod.mk.eta.symm
  obtain ⟨hcontent, -, hall⟩ := hcontents "a" _ hpath
  obtain ⟨hotherContent, -, hotherAll⟩ := hcontents "b" _ hother
  have hsteps : Path.steps "data/./" = ["data"] := by decide +kernel
  refine ⟨hpath, by decide, ?_, haccepts "a" (.inl rfl), ?_, ?_, hfilter⟩
  · rw [(hpaths "a" _ hpath).2.1, hsteps]
    rfl
  · rw [hcontent ["a", "data"] (by decide +kernel), hall (haccepts "a" (.inl rfl))]
    decide +kernel
  · rw [hotherContent ["b", "data"] (by decide +kernel), hotherAll (haccepts "b" (.inr rfl))]
    decide +kernel

end Files

end Tabular
