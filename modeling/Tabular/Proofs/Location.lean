import Tabular.Proofs.Footprint

/-! # Where table files are

The file of a table is in the directory of its database, and that directory is in the
data directory, provided the name of the database is an ordinary part of a path. A
valid configuration may still name the data directory itself or the one above it.
-/

namespace Tabular

/-- The text is one part of a path and leads to something directly below. -/
structure Path.IsOrdinary (part : String) : Prop where
  nonempty : part ≠ ""
  not_dot : part ≠ "."
  not_up : part ≠ ".."
  no_slash : '/' ∉ part.toList
  no_backslash : '\\' ∉ part.toList

theorem Path.isFileName_iff {name : String} : isFileName name = true ↔ IsOrdinary name := by
  unfold isFileName
  simp only [Bool.and_eq_true, bne_iff_ne, ne_eq, Bool.not_eq_true', List.contains_eq_mem,
    decide_eq_false_iff_not]
  constructor
  · rintro ⟨⟨⟨⟨hempty, hdot⟩, hup⟩, hslash⟩, hbackslash⟩
    exact ⟨hempty, hdot, hup, hslash, hbackslash⟩
  · rintro ⟨hempty, hdot, hup, hslash, hbackslash⟩
    exact ⟨⟨⟨⟨hempty, hdot⟩, hup⟩, hslash⟩, hbackslash⟩

namespace Config

variable {config : Config} {table : String}

theorem validate_eq_ok :
    config.validate = .ok () ↔
      checkChunkSize config.chunkSize = .ok () ∧ isDatabaseName config.database = true := by
  unfold validate
  cases checkChunkSize config.chunkSize with
  | error e => simp [bind, Except.bind]
  | ok checked =>
      cases isDatabaseName config.database <;> simp [bind, Except.bind, pure, Except.pure]

theorem isDatabaseName_iff {name : String} :
    isDatabaseName name = true ↔ name ≠ "" ∧ '/' ∉ name.toList ∧ '\\' ∉ name.toList := by
  unfold isDatabaseName
  simp only [Bool.and_eq_true, bne_iff_ne, ne_eq, Bool.not_eq_true', List.contains_eq_mem,
    decide_eq_false_iff_not, and_assoc]

/-- A valid configuration may name any part of a path as its database, also those that do
not lead below the data directory. -/
theorem isOrdinary_database_iff (hvalid : config.validate = .ok ()) :
    Path.IsOrdinary config.database ↔ config.database ≠ "." ∧ config.database ≠ ".." := by
  constructor
  · exact fun hordinary => ⟨hordinary.not_dot, hordinary.not_up⟩
  · rintro ⟨hdot, hup⟩
    obtain ⟨hempty, hslash, hbackslash⟩ := isDatabaseName_iff.mp (validate_eq_ok.mp hvalid).2
    exact ⟨hempty, hdot, hup, hslash, hbackslash⟩

theorem steps_tablePath (hdatabase : Path.IsOrdinary config.database)
    (htable : Path.IsOrdinary table) :
    Path.steps (config.tablePath table) =
      Path.steps config.dataDir ++ [config.database, table] := by
  obtain ⟨hdatabaseStays, -⟩ := Path.not_stays_of_isFileName (Path.isFileName_iff.mpr hdatabase)
  obtain ⟨htableStays, -⟩ := Path.not_stays_of_isFileName (Path.isFileName_iff.mpr htable)
  rw [tablePath, databaseDir, Path.steps_join htable.no_slash, Path.steps_join hdatabase.no_slash,
    hdatabaseStays, htableStays]
  simp

/-- Where the tables of a database are whose data directory is at a place. -/
def databasePlace (config : Config) (directory : FilePlace) : FilePlace :=
  if config.database = "." then directory
  else if config.database = ".." then directory.tail
  else config.database :: directory

theorem locate_databaseDir (hvalid : config.validate = .ok ()) {tree : FileTree} {place : FilePlace}
    (hlocate : tree.locate config.databaseDir = .ok place) :
    ∃ directory, tree.locate config.dataDir = .ok directory ∧
      place = config.databasePlace directory := by
  obtain ⟨hempty, hslash, -⟩ := isDatabaseName_iff.mp (validate_eq_ok.mp hvalid).2
  rw [databaseDir, FileTree.locate_join_eq hslash, Outcome.bind_eq_ok] at hlocate
  -- The name is one part of a path: a single step leads on from the data directory.
  obtain ⟨directory, hdirectory, hstep⟩ := hlocate
  refine ⟨directory, hdirectory, ?_⟩
  unfold FileTree.step at hstep
  unfold databasePlace
  by_cases hdot : config.database = "."
  · have hstays : Path.stays config.database = true := by simp [Path.stays, hdot]
    rw [if_pos hstays] at hstep
    rw [if_pos hdot, Except.ok.inj hstep]
  · have hstays : Path.stays config.database = false := by simp [Path.stays, hempty, hdot]
    rw [hstays, if_neg Bool.false_ne_true] at hstep
    rw [if_neg hdot]
    split at hstep
    next hup => rw [if_pos hup, Except.ok.inj hstep]
    next hup =>
      rw [if_neg hup]
      split at hstep
      · cases hstep
      · exact (Except.ok.inj hstep).symm

end Config

/-- Adding a row to a table changes no file but the one at the table's path. -/
theorem Files.locate_of_content?_ne {tree after : FileTree} {root table path : String} {row : Bytes}
    {outcome : Outcome Unit} {place : FilePlace} (hpath : Path.ofTable root table = .ok path)
    (hrun : (appendRow ⟨FileTree.disk, root⟩ table row).run tree = (outcome, after))
    (hchanged : after.content? place ≠ tree.content? place) : tree.locate path = .ok place := by
  obtain ⟨hname, rfl⟩ := ofTable_eq_ok.mp hpath
  cases appendRow_leaves hrun with
  | rejected => exact absurd rfl hchanged
  | faulted hname hmakes => exact absurd (hmakes.content? place) hchanged
  | @added file after hname hextends hplace hcontent hothers =>
      have hfile : place = file := by
        by_contra hne
        exact hchanged (hothers place hne)
      rw [hfile, ← FileTree.locate_congr hextends.current]
      exact FileTree.locate_of_resolve hplace

/-- The file that a table is read from is the one at the table's path. -/
theorem Files.path_of_openTable {tree after : FileTree} {root table path : String}
    {handle : FileHandle} (hpath : Path.ofTable root table = .ok path)
    (hopen : (openTable ⟨FileTree.disk, root⟩ table).run tree = (.ok handle, after)) :
    handle.path = path := by
  unfold openTable at hopen
  rw [hpath] at hopen
  simp only [StateT.run_bind, FileTree.disk_openFile_run] at hopen
  cases hfind : tree.find path with
  | error fault =>
      rw [hfind] at hopen
      cases hopen
  | ok node =>
      rw [hfind] at hopen
      cases hopen
      rfl

namespace Config

variable {config : Config} {table path : String}

/-- The file of a table is the one of its name where the database is: it is the one that
the table is read from, and the only one that adding a row changes. If the database is
neither `.` nor `..`, two ordinary names lead to it from the data directory. -/
theorem tables_below_dataDir (hvalid : config.validate = .ok ())
    (hpath : Path.ofTable config.databaseDir table = .ok path) :
    Path.IsOrdinary table ∧
      (Path.IsOrdinary config.database ↔ config.database ≠ "." ∧ config.database ≠ "..") ∧
      (Path.IsOrdinary config.database →
        Path.steps path = Path.steps config.dataDir ++ [config.database, table] ∧
          ∀ directory, config.databasePlace directory = config.database :: directory) ∧
      ∀ tree : FileTree,
        (∀ place, tree.locate path = .ok place →
          ∃ directory, tree.locate config.dataDir = .ok directory ∧
            place = table :: config.databasePlace directory) ∧
        (∀ handle after,
          (Files.openTable ⟨FileTree.disk, config.databaseDir⟩ table).run tree =
              (.ok handle, after) →
            handle.path = path) ∧
        ∀ row outcome after,
          (Files.appendRow ⟨FileTree.disk, config.databaseDir⟩ table row).run tree =
              (outcome, after) →
            ∀ place, after.content? place ≠ tree.content? place →
              tree.locate path = .ok place := by
  obtain ⟨hname, hjoin⟩ := Files.ofTable_eq_ok.mp hpath
  have htable : Path.IsOrdinary table := Path.isFileName_iff.mp hname
  refine ⟨htable, isOrdinary_database_iff hvalid, fun hdatabase => ⟨?_, fun directory => ?_⟩,
    fun tree => ⟨fun place hlocate => ?_, fun handle after hopen => ?_, ?_⟩⟩
  · rw [← hjoin]
    exact steps_tablePath hdatabase htable
  · rw [databasePlace, if_neg hdatabase.not_dot, if_neg hdatabase.not_up]
  · rw [← hjoin] at hlocate
    obtain ⟨base, hbase, rfl⟩ := FileTree.locate_join hname hlocate
    obtain ⟨directory, hdirectory, rfl⟩ := locate_databaseDir hvalid hbase
    exact ⟨directory, hdirectory, rfl⟩
  · exact Files.path_of_openTable hpath hopen
  · intro row outcome after hrun place hchanged
    exact Files.locate_of_content?_ne hpath hrun hchanged

theorem tables_below_dataDir_labels :
    let config := Config.mk "data/." "labels" 13 none
    config.validate = .ok () ∧
      Path.ofTable config.databaseDir "Label" = .ok "data/./labels/Label" ∧
      Path.steps "data/./labels/Label" = ["data", "labels", "Label"] ∧
      ∀ place, (FileTree.empty []).locate "data/./labels/Label" = .ok place →
        place = ["Label", "labels", "data"] := by
  intro config
  have hvalid : config.validate = .ok () := by decide
  have hpath : Path.ofTable config.databaseDir "Label" = .ok "data/./labels/Label" := by decide
  obtain ⟨-, hordinary, hbelow, htree⟩ := tables_below_dataDir hvalid hpath
  have hdatabase : Path.IsOrdinary config.database := hordinary.mpr (by decide)
  obtain ⟨hsteps, hplace⟩ := hbelow hdatabase
  have hdata : Path.steps config.dataDir = ["data"] := by decide +kernel
  rw [hdata] at hsteps
  refine ⟨hvalid, hpath, hsteps, fun place hlocate => ?_⟩
  obtain ⟨directory, hdirectory, rfl⟩ := (htree _).1 place hlocate
  have hroot : (FileTree.empty []).locate config.dataDir = .ok ["data"] := by decide +kernel
  cases hroot.symm.trans hdirectory
  rw [hplace]

/-- A valid configuration may have its tables outside the data directory. -/
theorem validate_accepts_parent :
    let config := Config.mk "data" ".." defaultChunkSize none
    let added := (Files.appendRow ⟨FileTree.disk, config.databaseDir⟩ "User" [1]).run
      (FileTree.empty [])
    config.validate = .ok () ∧ ¬ Path.IsOrdinary config.database ∧
      Path.ofTable config.databaseDir "User" = .ok "data/../User" ∧ added.1 = .ok () ∧
      added.2.locate config.dataDir = .ok ["data"] ∧ added.2.content? ["User"] = some [1] := by
  intro config added
  refine ⟨by decide, fun hordinary => hordinary.not_up rfl, by decide, ?_, ?_, ?_⟩
  · decide +kernel
  · decide +kernel
  · decide +kernel

end Config

end Tabular
