import Tabular.Proofs.Tree
import Tabular.Storage.Files

/-! # Appending rows to files

A row that is reported as appended has been added at the end of the file of its
table. In all other cases nothing has happened but that directories were made.
-/

namespace Tabular

theorem FileTree.disk_append_run (tree : FileTree) (path : String) (bytes : Bytes) :
    (disk.append path bytes).run tree =
      match tree.append path bytes with
      | .ok after => (.ok (), after)
      | .error fault => (.error fault, tree) := by
  change (match tree.append path bytes with
    | .ok after => (do set after; return .ok () : StateM FileTree (Except DiskFault Unit))
    | .error fault => return .error fault).run tree = _
  cases tree.append path bytes <;> rfl

/-- The file at a path holds rows one after the other. While there are none, no file
is at the place of the path. -/
inductive FileTree.Stores (tree : FileTree) (path : String) : List Bytes → Prop
  | missing (hmissing : ∀ place content, tree.locate path = .ok place →
      tree.node? place ≠ some (.file content)) : Stores tree path []
  | file {rows : List Bytes} (hfile : tree.find path = .ok (.file rows.flatten)) :
    Stores tree path rows

namespace Files

variable {tree after : FileTree} {root table : String} {row : Bytes}

theorem ofTable_eq_ok {path : String} :
    Path.ofTable root table = .ok path ↔
      Path.isFileName table = true ∧ Path.join root table = path := by
  unfold Path.ofTable
  split <;> simp_all

theorem appendRow_run (tree : FileTree) (root table : String) (row : Bytes) :
    (appendRow ⟨FileTree.disk, root⟩ table row).run tree =
      match Path.ofTable root table with
      | .error e => (.error e, tree)
      | .ok path =>
        match tree.makeDirectories (Path.trimmed root) with
        | (.error fault, made) => (.error (.io fault), made)
        | (.ok (), made) =>
          match made.append path row with
          | .error fault => (.error (.io fault), made)
          | .ok after => (.ok (), after) := by
  unfold appendRow
  cases Path.ofTable root table with
  | error e => rfl
  | ok path =>
      have hmake : (FileTree.disk.makeDirectories (Path.trimmed root)).run tree =
          tree.makeDirectories (Path.trimmed root) := rfl
      simp only [StateT.run_bind, hmake]
      rcases tree.makeDirectories (Path.trimmed root) with ⟨⟨fault⟩ | ⟨⟩, made⟩
      · rfl
      · change (FileTree.disk.append path row >>= fun outcome =>
          (return outcome.mapError .io : StateM FileTree (Outcome Unit))).run made = _
        rw [StateT.run_bind, FileTree.disk_append_run]
        cases happend : made.append path row <;> simp only [happend] <;> rfl

/-- A row is appended exactly if the table has a file's name, the directories can be
made, and the file takes the row. -/
theorem appendRow_eq_ok :
    (appendRow ⟨FileTree.disk, root⟩ table row).run tree = (.ok (), after) ↔
      Path.isFileName table = true ∧ ∃ made,
        tree.makeDirectories (Path.trimmed root) = (.ok (), made) ∧
          made.append (Path.join root table) row = .ok after := by
  rw [appendRow_run]
  constructor
  · intro hrun
    split at hrun
    · cases hrun
    next hpath =>
      obtain ⟨hname, rfl⟩ := ofTable_eq_ok.mp hpath
      split at hrun
      · cases hrun
      next made hmake =>
        refine ⟨hname, made, hmake, ?_⟩
        split at hrun
        · cases hrun
        next happend =>
          cases hrun
          exact happend
  · rintro ⟨hname, made, hmake, happend⟩
    simp only [ofTable_eq_ok.mpr ⟨hname, rfl⟩, hmake, happend]

/-- An append that fails adds no bytes to any file. -/
theorem onlyMakes_of_appendRow {e : Error}
    (hfails : (appendRow ⟨FileTree.disk, root⟩ table row).run tree = (.error e, after)) :
    tree.OnlyMakes after := by
  rw [appendRow_run] at hfails
  split at hfails
  · cases hfails
    exact .refl tree
  · split at hfails
    next hmake =>
      cases hfails
      exact FileTree.onlyMakes_of_makeDirectories hmake
    next hmake =>
      split at hfails
      · cases hfails
        exact FileTree.onlyMakes_of_makeDirectories hmake
      · cases hfails

end Files

namespace FileTree

variable {tree made : FileTree} {path : String} {rows : List Bytes}

theorem Stores.of_onlyMakes (hstores : tree.Stores path rows) (hmakes : tree.OnlyMakes made) :
    made.Stores path rows := by
  cases hstores with
  | missing hmissing =>
      apply Stores.missing
      intro place content hlocate hfile
      rw [locate_congr hmakes.current] at hlocate
      exact hmissing place content hlocate (hmakes.file.mp hfile)
  | file hfile =>
      obtain ⟨place, hresolve, hnode⟩ := find_eq_ok.mp hfile
      exact .file (find_eq_ok.mpr ⟨place, hmakes.extends.resolve hresolve, hmakes.file.mpr hnode⟩)

/-- Rows that are stored are in a file. -/
theorem Stores.find (hstores : tree.Stores path rows) (hrows : rows ≠ []) :
    tree.find path = .ok (.file rows.flatten) := by
  cases hstores with
  | missing => exact absurd rfl hrows
  | file hfile => exact hfile

/-- A file that is put elsewhere makes no difference. -/
theorem Stores.put (hstores : tree.Stores path rows) {other : FilePlace} {content : Bytes}
    (hother : tree.node? other ≠ some .directory) (hne : tree.locate path ≠ .ok other) :
    (tree.put other (.file content)).Stores path rows := by
  have helsewhere : ∀ place, tree.locate path = .ok place →
      (tree.put other (.file content)).node? place = tree.node? place := by
    intro place hlocate
    apply node?_put_of_ne
    rintro rfl
    exact hne hlocate
  cases hstores with
  | missing hmissing =>
      apply Stores.missing
      intro place bytes hlocate
      rw [helsewhere place hlocate]
      exact hmissing place bytes hlocate
  | file hfile =>
      obtain ⟨place, hresolve, hnode⟩ := find_eq_ok.mp hfile
      refine .file (find_eq_ok.mpr ⟨place, (extends_put content hother).resolve hresolve, ?_⟩)
      rw [helsewhere place (locate_of_resolve hresolve), hnode]

/-- Bytes that are appended at the path are one more row. -/
theorem Stores.append (hstores : tree.Stores path rows) {row : Bytes} {after : FileTree}
    (happend : tree.append path row = .ok after) : after.Stores path (rows ++ [row]) := by
  obtain ⟨place, content, hresolve, hnode, rfl⟩ := append_eq_ok.mp happend
  -- The bytes that are there are those of the rows so far.
  have hcontent : content = rows.flatten := by
    cases hstores with
    | missing hmissing =>
        rcases hnode with hfile | ⟨-, rfl⟩
        · exact absurd hfile (hmissing place content (locate_of_resolve hresolve))
        · rfl
    | file hfile =>
        obtain ⟨place', hresolve', hnode'⟩ := find_eq_ok.mp hfile
        rw [hresolve] at hresolve'
        cases hresolve'
        rcases hnode with hfile | ⟨hnone, -⟩
        · rw [hfile] at hnode'
          cases hnode'
          rfl
        · rw [hnone] at hnode'
          cases hnode'
  have hextends := extends_put (content ++ row) (ne_directory_of_appendable hnode)
  refine .file (find_eq_ok.mpr ⟨place, hextends.resolve hresolve, ?_⟩)
  rw [node?_put_self, List.flatten_append, List.flatten_singleton, hcontent]

end FileTree

namespace Files

variable {tree after : FileTree} {root table other : String} {row : Bytes} {rows : List Bytes}

/-- A row that is appended to a table is the last one in its file. -/
theorem stores_of_appendRow (hstores : tree.Stores (Path.join root table) rows)
    (happend : (appendRow ⟨FileTree.disk, root⟩ table row).run tree = (.ok (), after)) :
    after.Stores (Path.join root table) (rows ++ [row]) := by
  obtain ⟨-, made, hmade, happend⟩ := appendRow_eq_ok.mp happend
  exact (hstores.of_onlyMakes (FileTree.onlyMakes_of_makeDirectories hmade)).append happend

/-- A row that is appended to another table makes no difference. -/
theorem stores_of_appendRow_other (hstores : tree.Stores (Path.join root table) rows)
    (hname : Path.isFileName table = true) (hne : other ≠ table)
    (happend : (appendRow ⟨FileTree.disk, root⟩ other row).run tree = (.ok (), after)) :
    after.Stores (Path.join root table) rows := by
  obtain ⟨hother, made, hmade, happend⟩ := appendRow_eq_ok.mp happend
  obtain ⟨place, content, hresolve, hnode, rfl⟩ := FileTree.append_eq_ok.mp happend
  apply (hstores.of_onlyMakes (FileTree.onlyMakes_of_makeDirectories hmade)).put
  · exact FileTree.ne_directory_of_appendable hnode
  · intro hlocate
    exact FileTree.locate_join_ne hname hother hne hlocate (FileTree.locate_of_resolve hresolve) rfl

end Files

end Tabular
