import Mathlib.Data.List.Basic
import Tabular.Disk.Path

/-! # Paths of table files

The path of a file directly below a directory has the parts of the directory's
path and, as the last one, the name of the file.
-/

namespace Tabular.Path

theorem parts_eq_singleton {name : String} (hname : '/' ∉ name.toList) : parts name = [name] := by
  rw [parts, List.splitOn_eq_singleton hname]
  simp

theorem parts_append_slash (before after : String) :
    parts (before ++ "/" ++ after) = parts before ++ parts after := by
  have hchars : (before ++ "/" ++ after).toList = before.toList ++ '/' :: after.toList := by
    simp
  rw [parts, hchars, List.splitOn_append_cons_self, List.map_append]
  rfl

theorem exists_of_getLast?_slash {path : String} (hslash : path.toList.getLast? = some '/') :
    ∃ init : String, path = init ++ "/" := by
  obtain ⟨init, hinit⟩ := List.getLast?_eq_some_iff.mp hslash
  refine ⟨String.ofList init, String.toList_inj.mp ?_⟩
  simp [hinit]

theorem parts_concat_slash (path : String) : parts (path ++ "/") = parts path ++ [""] := by
  rw [← String.append_empty (s := path ++ "/"), parts_append_slash]
  rfl

/-- The parts of a path that come before the name of a file below it. -/
def above (directory : String) : List String :=
  if directory.toList = [] then []
  else if directory.toList.getLast? = some '/' then (parts directory).dropLast
  else parts directory

variable {name : String}

theorem slash_notMem_of_isFileName (hname : isFileName name = true) : '/' ∉ name.toList := by
  unfold isFileName at hname
  simp only [Bool.and_eq_true, Bool.not_eq_true', List.contains_eq_mem, decide_eq_false_iff_not]
    at hname
  exact hname.1.2

theorem not_stays_of_isFileName (hname : isFileName name = true) :
    stays name = false ∧ name ≠ ".." := by
  unfold isFileName at hname
  simp only [Bool.and_eq_true, bne_iff_ne, ne_eq] at hname
  obtain ⟨⟨⟨⟨hempty, hdot⟩, hup⟩, -⟩, -⟩ := hname
  exact ⟨by simp [stays, hempty, hdot], hup⟩

theorem join_of_notMem (hname : '/' ∉ name.toList) (directory : String) :
    join directory name =
      if directory.toList = [] ∨ directory.toList.getLast? = some '/' then directory ++ name
      else directory ++ "/" ++ name := by
  rw [join, if_neg]
  intro hhead
  exact hname (List.mem_of_mem_head? hhead)

/-- A name without slashes is the last part of the path that it is joined to. -/
theorem parts_join (hname : '/' ∉ name.toList) (directory : String) :
    parts (join directory name) = above directory ++ [name] := by
  have hparts : parts name = [name] := parts_eq_singleton hname
  rw [join_of_notMem hname, above]
  by_cases hempty : directory.toList = []
  · rw [if_pos (.inl hempty), if_pos hempty, String.toList_eq_nil_iff.mp hempty, String.empty_append,
      hparts]
    rfl
  · by_cases hslash : directory.toList.getLast? = some '/'
    · rw [if_pos (.inr hslash), if_neg hempty, if_pos hslash]
      -- The slash at the end of the directory's path is the one before the name.
      obtain ⟨init, hdirectory⟩ := exists_of_getLast?_slash hslash
      rw [hdirectory, parts_append_slash, hparts, parts_concat_slash, List.dropLast_concat]
    · rw [if_neg (by simp [hempty, hslash]), if_neg hempty, if_neg hslash, parts_append_slash,
        hparts]

/-- The parts of a path that lead on: all but those that stay where they are. -/
def steps (path : String) : List String :=
  (parts path).filter fun part => !stays part

/-- The parts above a file's name lead where the directory's path does. -/
theorem filter_above (directory : String) :
    ((above directory).filter fun part => !stays part) = steps directory := by
  have hstays : stays "" = true := by decide
  rw [above, steps]
  by_cases hempty : directory.toList = []
  · rw [if_pos hempty, String.toList_eq_nil_iff.mp hempty]
    rfl
  · rw [if_neg hempty]
    by_cases hslash : directory.toList.getLast? = some '/'
    · obtain ⟨init, hdirectory⟩ := exists_of_getLast?_slash hslash
      rw [if_pos hslash, hdirectory, parts_concat_slash, List.dropLast_concat, List.filter_append]
      simp [hstays]
    · rw [if_neg hslash]

/-- Joining a name without slashes to a path adds its step, if it is one. -/
theorem steps_join (hname : '/' ∉ name.toList) (directory : String) :
    steps (join directory name) = steps directory ++ if stays name then [] else [name] := by
  rw [steps, parts_join hname, List.filter_append, filter_above]
  cases hstays : stays name <;> simp [hstays]

end Tabular.Path
