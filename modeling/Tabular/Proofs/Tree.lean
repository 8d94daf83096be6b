import Tabular.Disk.Tree
import Tabular.Proofs.Path

/-! # Places in a tree

A path leads to the same place in every tree in which it leads anywhere, and a
tree only grows: directories stay, and making directories puts them where nothing
was. What one path finds is therefore changed only by appending at its own place.
-/

namespace Tabular.FileTree

variable {tree made later : FileTree} {place next : FilePlace} {path root name : String}

theorem enter_eq_ok {part : String} :
    tree.enter place part = .ok next ↔
      tree.node? place = some .directory ∧ step place part = .ok next := by
  unfold enter
  split <;> simp_all

/-- The place that a path names, whatever is there or on the way to it. -/
def locate (tree : FileTree) (path : String) : Except DiskFault FilePlace :=
  (Path.parts path).foldlM step (tree.start path)

theorem foldlM_cons_eq_ok {f : FilePlace → String → Except DiskFault FilePlace} {part : String}
    {rest : List String} :
    (part :: rest).foldlM f place = .ok next ↔
      ∃ entered, f place part = .ok entered ∧ rest.foldlM f entered = .ok next := by
  rw [List.foldlM_cons]
  cases f place part <;> simp [bind, Except.bind]

/-- Parts that are followed in one way are followed in every way that allows the
same steps. -/
theorem foldlM_mono {f g : FilePlace → String → Except DiskFault FilePlace}
    (hmono : ∀ {place part next}, f place part = .ok next → g place part = .ok next)
    {parts : List String} (hfollow : parts.foldlM f place = .ok next) :
    parts.foldlM g place = .ok next := by
  induction parts generalizing place with
  | nil => exact hfollow
  | cons part rest ih =>
      obtain ⟨entered, hstep, hrest⟩ := foldlM_cons_eq_ok.mp hfollow
      exact foldlM_cons_eq_ok.mpr ⟨entered, hmono hstep, ih hrest⟩

theorem resolve_eq_ok :
    tree.resolve path = .ok place ↔ checkPath path = .ok () ∧ path ≠ "" ∧
      (Path.parts path).foldlM tree.enter (tree.start path) = .ok place := by
  unfold resolve
  cases checkPath path with
  | error fault => simp [bind, Except.bind]
  | ok checked => by_cases hempty : path = "" <;> simp [bind, Except.bind, hempty]

theorem locate_of_resolve (hresolve : tree.resolve path = .ok place) :
    tree.locate path = .ok place :=
  foldlM_mono (fun henter => (enter_eq_ok.mp henter).2) (resolve_eq_ok.mp hresolve).2.2

theorem start_congr (hcurrent : later.current = tree.current) (path : String) :
    later.start path = tree.start path := by
  rw [start, start, hcurrent]

theorem locate_congr (hcurrent : later.current = tree.current) (path : String) :
    later.locate path = tree.locate path := by
  rw [locate, locate, start_congr hcurrent]

/-- Parts that stay where they are make no difference to where a path leads. -/
theorem foldlM_step_filter (parts : List String) (place : FilePlace) :
    (parts.filter fun part => !Path.stays part).foldlM step place = parts.foldlM step place := by
  induction parts generalizing place with
  | nil => rfl
  | cons part rest ih =>
      rw [List.filter_cons]
      cases hstays : Path.stays part with
      | true =>
          have hstep : step place part = .ok place := if_pos hstays
          rw [List.foldlM_cons, hstep]
          exact ih place
      | false =>
          rw [Bool.not_false, if_pos rfl, List.foldlM_cons, List.foldlM_cons]
          exact congrArg (step place part >>= ·) (funext ih)

theorem start_join (hname : '/' ∉ name.toList) (tree : FileTree) (root : String) :
    tree.start (Path.join root name) = tree.start root := by
  have hroot : (Path.join root name).toList.head? = some '/' ↔ root.toList.head? = some '/' := by
    rw [Path.join_of_notMem hname]
    by_cases hempty : root.toList = []
    · have hhead : name.toList.head? ≠ some '/' := fun hslash =>
        hname (List.mem_of_mem_head? hslash)
      simp [hempty, hhead]
    · split <;> simp [List.head?_append_of_ne_nil _ hempty]
  rw [start, start]
  simp only [hroot]

/-- A name without slashes is one step from where the path leads that it is joined to. -/
theorem locate_join_eq (hname : '/' ∉ name.toList) (tree : FileTree) (root : String) :
    tree.locate (Path.join root name) =
      tree.locate root >>= fun directory => step directory name := by
  rw [locate, locate, start_join hname, Path.parts_join hname, List.foldlM_append,
    ← foldlM_step_filter (Path.above root), Path.filter_above, Path.steps, foldlM_step_filter]
  cases (Path.parts root).foldlM step (tree.start root) with
  | error fault => rfl
  | ok directory =>
      change step directory name >>= pure = step directory name
      rw [bind_pure]

/-- The file of a name is at a place of that name. -/
theorem locate_join (hname : Path.isFileName name = true)
    (hlocate : tree.locate (Path.join root name) = .ok place) :
    ∃ directory, tree.locate root = .ok directory ∧ place = name :: directory := by
  obtain ⟨hstays, hup⟩ := Path.not_stays_of_isFileName hname
  rw [locate_join_eq (Path.slash_notMem_of_isFileName hname)] at hlocate
  cases hroot : tree.locate root with
  | error fault =>
      rw [hroot] at hlocate
      cases hlocate
  | ok directory =>
      rw [hroot] at hlocate
      change step directory name = .ok place at hlocate
      refine ⟨directory, rfl, ?_⟩
      simp only [step, hstays, hup, Bool.false_eq_true, if_false] at hlocate
      split at hlocate
      · cases hlocate
      · cases hlocate
        rfl

/-- The files of two names are at different places. -/
theorem locate_join_ne {other : String} {otherPlace : FilePlace}
    (hname : Path.isFileName name = true) (hother : Path.isFileName other = true)
    (hne : other ≠ name) (hlocate : tree.locate (Path.join root name) = .ok place)
    (hlocateOther : tree.locate (Path.join root other) = .ok otherPlace) : otherPlace ≠ place := by
  obtain ⟨directory, -, rfl⟩ := locate_join hname hlocate
  obtain ⟨otherDirectory, -, rfl⟩ := locate_join hother hlocateOther
  intro hplace
  exact hne (List.cons.inj hplace).1

/-- Nothing is at the place that a path names. -/
def Vacant (tree : FileTree) (path : String) : Prop :=
  ∀ place, tree.locate path = .ok place → tree.node? place = none

theorem vacant_empty (hname : Path.isFileName name = true) :
    (FileTree.empty []).Vacant (Path.join root name) := by
  intro place hlocate
  obtain ⟨directory, -, rfl⟩ := locate_join hname hlocate
  simp [empty]

/-- The later tree has all directories of the earlier one. -/
structure Extends (tree later : FileTree) : Prop where
  current : later.current = tree.current
  directory : ∀ place, tree.node? place = some .directory → later.node? place = some .directory

theorem Extends.refl (tree : FileTree) : tree.Extends tree :=
  ⟨rfl, fun _ hplace => hplace⟩

theorem Extends.trans (hfirst : tree.Extends made) (hsecond : made.Extends later) :
    tree.Extends later where
  current := hsecond.current.trans hfirst.current
  directory place hplace := hsecond.directory place (hfirst.directory place hplace)

@[simp] theorem node?_put_self (tree : FileTree) (place : FilePlace) (node : FileNode) :
    (tree.put place node).node? place = some node :=
  if_pos rfl

theorem node?_put_of_ne {other : FilePlace} (hother : other ≠ place) (node : FileNode) :
    (tree.put place node).node? other = tree.node? other :=
  if_neg hother

theorem extends_put (content : Bytes) (hplace : tree.node? place ≠ some .directory) :
    tree.Extends (tree.put place (.file content)) where
  current := rfl
  directory other hother := by
    have hne : other ≠ place := by
      rintro rfl
      exact hplace hother
    rw [node?_put_of_ne hne, hother]

theorem Extends.enter (hextends : tree.Extends later) {part : String}
    (henter : tree.enter place part = .ok next) : later.enter place part = .ok next := by
  obtain ⟨hnode, hstep⟩ := enter_eq_ok.mp henter
  exact enter_eq_ok.mpr ⟨hextends.directory place hnode, hstep⟩

theorem Extends.resolve (hextends : tree.Extends later) (hresolve : tree.resolve path = .ok place) :
    later.resolve path = .ok place := by
  obtain ⟨hcheck, hempty, hfollow⟩ := resolve_eq_ok.mp hresolve
  refine resolve_eq_ok.mpr ⟨hcheck, hempty, ?_⟩
  rw [start_congr hextends.current]
  exact foldlM_mono hextends.enter hfollow

/-- The later tree has some more directories, and is the earlier one otherwise. -/
structure OnlyMakes (tree made : FileTree) : Prop where
  current : made.current = tree.current
  node? : ∀ place, made.node? place = tree.node? place ∨
    tree.node? place = none ∧ made.node? place = some .directory

theorem OnlyMakes.refl (tree : FileTree) : tree.OnlyMakes tree :=
  ⟨rfl, fun _ => .inl rfl⟩

theorem OnlyMakes.trans (hfirst : tree.OnlyMakes made) (hsecond : made.OnlyMakes later) :
    tree.OnlyMakes later where
  current := hsecond.current.trans hfirst.current
  node? place := by
    rcases hsecond.node? place with hsame | ⟨hnone, hmade⟩
    · rw [hsame]
      exact hfirst.node? place
    · rcases hfirst.node? place with hsame | ⟨-, hdirectory⟩
      · exact .inr ⟨hsame ▸ hnone, hmade⟩
      · rw [hdirectory] at hnone
        cases hnone

theorem OnlyMakes.extends (hmakes : tree.OnlyMakes made) : tree.Extends made where
  current := hmakes.current
  directory place hplace := by
    rcases hmakes.node? place with hsame | ⟨hnone, -⟩
    · rw [hsame, hplace]
    · rw [hplace] at hnone
      cases hnone

theorem OnlyMakes.file (hmakes : tree.OnlyMakes made) {content : Bytes} :
    made.node? place = some (.file content) ↔ tree.node? place = some (.file content) := by
  rcases hmakes.node? place with hsame | ⟨hnone, hdirectory⟩
  · rw [hsame]
  · simp [hnone, hdirectory]

theorem OnlyMakes.follow (hmakes : tree.OnlyMakes made) {parts : List String}
    (hfollow : parts.foldlM made.enter place = .ok next) :
    parts.foldlM tree.enter place = .ok next ∨ parts.foldlM tree.enter place = .error .notFound := by
  induction parts generalizing place with
  | nil => exact .inl hfollow
  | cons part rest ih =>
      obtain ⟨entered, henter, hrest⟩ := foldlM_cons_eq_ok.mp hfollow
      obtain ⟨hnode, hstep⟩ := enter_eq_ok.mp henter
      rw [List.foldlM_cons]
      rcases hmakes.node? place with hsame | ⟨hnone, -⟩
      · rw [enter_eq_ok.mpr ⟨hsame ▸ hnode, hstep⟩]
        exact ih hrest
      · -- Before this directory was made, the path ended here.
        right
        rw [FileTree.enter, hnone]
        rfl

/-- A path that leads somewhere only after directories were made has led nowhere
because one of them was missing. -/
theorem OnlyMakes.resolve (hmakes : tree.OnlyMakes made) (hresolve : made.resolve path = .ok place) :
    tree.resolve path = .ok place ∨ tree.resolve path = .error .notFound := by
  obtain ⟨hcheck, hempty, hfollow⟩ := resolve_eq_ok.mp hresolve
  rw [start_congr hmakes.current] at hfollow
  rw [FileTree.resolve, hcheck]
  change (if path = "" then _ else _) = _ ∨ (if path = "" then _ else _) = _
  rw [if_neg hempty]
  exact hmakes.follow hfollow

theorem ensureDirectory_eq_ok {fault : DiskFault}
    (hensure : tree.ensureDirectory place fault = .ok made) :
    tree.OnlyMakes made ∧ made.node? place = some .directory := by
  unfold ensureDirectory at hensure
  split at hensure
  next hnode =>
    cases hensure
    exact ⟨.refl tree, hnode⟩
  next => cases hensure
  next hnode =>
    cases hensure
    refine ⟨⟨rfl, fun other => ?_⟩, if_pos rfl⟩
    by_cases hother : other = place
    · exact .inr ⟨hother ▸ hnode, if_pos hother⟩
    · exact .inl (if_neg hother)

theorem makeFrom_onlyMakes (tree : FileTree) (place : FilePlace) (parts : List String) :
    tree.OnlyMakes (tree.makeFrom place parts).2 := by
  induction parts generalizing tree place with
  | nil =>
      unfold makeFrom
      split
      next hensure => exact (ensureDirectory_eq_ok hensure).1
      next => exact .refl tree
  | cons part rest ih =>
      unfold makeFrom
      split
      next => exact .refl tree
      next hensure =>
        have hmakes := (ensureDirectory_eq_ok hensure).1
        split
        · exact hmakes
        · exact hmakes.trans (ih ..)

/-- What has been made once is there and stays there. -/
theorem makeFrom_again {parts : List String} (hmade : tree.makeFrom place parts = (.ok (), made))
    (hextends : made.Extends later) : later.makeFrom place parts = (.ok (), later) := by
  induction parts generalizing tree place with
  | nil =>
      unfold makeFrom at hmade ⊢
      split at hmade
      next hensure =>
        cases hmade
        have hplace := hextends.directory place (ensureDirectory_eq_ok hensure).2
        rw [ensureDirectory, hplace]
      next => cases hmade
  | cons part rest ih =>
      unfold makeFrom at hmade ⊢
      split at hmade
      next => cases hmade
      next hensure =>
        split at hmade
        next => cases hmade
        next mid _ entered hstep =>
          have hmakes := makeFrom_onlyMakes mid entered rest
          rw [hmade] at hmakes
          have hplace := hextends.directory place
            (hmakes.extends.directory place (ensureDirectory_eq_ok hensure).2)
          rw [ensureDirectory, hplace]
          simp only
          exact ih hmade

theorem onlyMakes_of_makeDirectories {outcome : Except DiskFault Unit}
    (hmade : tree.makeDirectories path = (outcome, made)) : tree.OnlyMakes made := by
  unfold makeDirectories at hmade
  split at hmade
  · cases hmade
    exact .refl tree
  · split at hmade
    · cases hmade
      exact .refl tree
    · have hmakes := makeFrom_onlyMakes tree (tree.start path) (Path.parts path)
      rwa [hmade] at hmakes

/-- Making the directories of a path again changes nothing. -/
theorem makeDirectories_again (hmade : tree.makeDirectories path = (.ok (), made))
    (hextends : made.Extends later) : later.makeDirectories path = (.ok (), later) := by
  have hmakes := onlyMakes_of_makeDirectories hmade
  unfold makeDirectories at hmade ⊢
  split at hmade
  next hempty => rw [if_pos hempty]
  next hempty =>
    rw [if_neg hempty]
    cases hcheck : checkPath path with
    | error fault =>
        rw [hcheck] at hmade
        cases hmade
    | ok checked =>
        rw [hcheck] at hmade
        simp only [start_congr (hextends.current.trans hmakes.current)]
        exact makeFrom_again hmade hextends

/-- Bytes are added where the path leads: to the file there, or to a new one. -/
theorem append_eq_ok {bytes : Bytes} {after : FileTree} :
    tree.append path bytes = .ok after ↔ ∃ place content, tree.resolve path = .ok place ∧
      (tree.node? place = some (.file content) ∨ tree.node? place = none ∧ content = []) ∧
      after = tree.put place (.file (content ++ bytes)) := by
  unfold append
  cases tree.resolve path with
  | error fault => simp [bind, Except.bind]
  | ok place =>
      cases hnode : tree.node? place with
      | none => simp [bind, Except.bind, hnode, eq_comm]
      | some node => cases node <;> simp [bind, Except.bind, hnode, eq_comm]

theorem ne_directory_of_appendable {content : Bytes}
    (hnode : tree.node? place = some (.file content) ∨ tree.node? place = none ∧ content = []) :
    tree.node? place ≠ some .directory := by
  rcases hnode with hfile | ⟨hnone, -⟩
  · simp [hfile]
  · simp [hnone]

theorem find_eq_ok {node : FileNode} :
    tree.find path = .ok node ↔
      ∃ place, tree.resolve path = .ok place ∧ tree.node? place = some node := by
  unfold find
  cases tree.resolve path with
  | error fault => simp [bind, Except.bind]
  | ok place => cases hnode : tree.node? place <;> simp [bind, Except.bind, hnode]

theorem find_eq_notFound (hresolve : tree.resolve path = .ok place)
    (hplace : tree.node? place = none) : tree.find path = .error .notFound := by
  simp [find, hresolve, hplace, bind, Except.bind]

end Tabular.FileTree
