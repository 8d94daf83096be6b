import Mathlib.Data.List.Induction
import Tabular.Proofs.Outcome
import Tabular.Record
import Tabular.Statement.Reader

/-! # Filling records

A record that is filled from left to right has the names of its fields in the
order of their first insertion. Filled with values that may be missing, it fails
with the first error among them.
-/

namespace Tabular

/-- A name at the end counts only if it is new. -/
theorem Fields.distinct_concat (names : List String) (name : String) :
    Fields.distinct (names ++ [name]) =
      if name ∈ Fields.distinct names then Fields.distinct names
      else Fields.distinct names ++ [name] := by
  rw [Fields.distinct, List.foldl_concat]
  rfl

theorem Fields.distinct_eq_eraseDups (names : List String) :
    Fields.distinct names = names.eraseDups := by
  induction names using List.reverseRecOn with
  | nil => rfl
  | append_singleton names name ih =>
      rw [distinct_concat, ih, List.eraseDups_append]
      by_cases hseen : name ∈ names <;> simp [List.removeAll, hseen, List.eraseDups_cons]

theorem Fields.distinct_of_nodup {names : List String} (hnodup : names.Nodup) :
    Fields.distinct names = names := by
  induction names using List.reverseRecOn with
  | nil => rfl
  | append_singleton names name ih =>
      rw [List.nodup_append] at hnodup
      have hnew : name ∉ names := fun hmem => hnodup.2.2 name hmem name List.mem_cons_self rfl
      rw [distinct_concat, ih hnodup.1, if_neg hnew]

/-- The distinct names are each there once, and they are the names. -/
theorem Fields.nodup_distinct (names : List String) :
    (Fields.distinct names).Nodup ∧ ∀ name, name ∈ Fields.distinct names ↔ name ∈ names := by
  refine ⟨?_, fun name => by rw [distinct_eq_eraseDups, List.mem_eraseDups]⟩
  induction names using List.reverseRecOn with
  | nil => exact List.nodup_nil
  | append_singleton names name ih =>
      rw [distinct_concat]
      split
      · exact ih
      next hnew =>
        refine List.nodup_append.mpr ⟨ih, List.pairwise_singleton _ _, ?_⟩
        rintro other hother _ hname rfl
        exact hnew (List.mem_singleton.mp hname ▸ hother)

namespace Record

theorem insertField_names (name : String) (value : Value) (fields : List (String × Value)) :
    (insertField name value fields).map Prod.fst =
      if name ∈ fields.map Prod.fst then fields.map Prod.fst else fields.map Prod.fst ++ [name] := by
  induction fields with
  | nil => rfl
  | cons field rest ih =>
      obtain ⟨other, old⟩ := field
      rw [insertField]
      split
      next hsame => simp [hsame]
      next hother =>
        have hne : name ≠ other := fun heq => hother heq.symm
        simp only [List.map_cons, ih, List.mem_cons, hne, false_or]
        split <;> rfl

/-- Insertion adds a name at the end unless it is there already. -/
theorem names_insert (record : Record) (name : String) (value : Value) :
    (record.insert name value).names =
      if name ∈ record.names then record.names else record.names ++ [name] :=
  insertField_names name value record.fields

theorem mem_insertField {name : String} {value : Value} {fields : List (String × Value)}
    {entry : String × Value} (hentry : entry ∈ insertField name value fields) :
    entry = (name, value) ∨ entry ∈ fields := by
  induction fields with
  | nil => exact .inl (List.mem_singleton.mp hentry)
  | cons field rest ih =>
      obtain ⟨other, old⟩ := field
      rw [insertField] at hentry
      split at hentry
      next hsame =>
        subst hsame
        exact (List.mem_cons.mp hentry).imp_right (List.mem_cons_of_mem _)
      next =>
        rcases List.mem_cons.mp hentry with rfl | hrest
        · exact .inr List.mem_cons_self
        · exact (ih hrest).imp_right (List.mem_cons_of_mem _)

/-- Every entry of a record was there before an insertion or is the inserted one. -/
theorem mem_fields_insert {record : Record} {name : String} {value : Value}
    {entry : String × Value} (hentry : entry ∈ (record.insert name value).fields) :
    entry = (name, value) ∨ entry ∈ record.fields :=
  mem_insertField hentry

/-- A record with more fields, inserted from left to right up to the first error. -/
def fill (record : Record) (fields : List (String × Outcome Value)) : Outcome Record :=
  fields.foldlM (fun record field => return record.insert field.1 (← field.2)) record

theorem fill_nil (record : Record) : record.fill [] = .ok record := rfl

theorem fill_cons (record : Record) (name : String) (outcome : Outcome Value)
    (rest : List (String × Outcome Value)) :
    record.fill ((name, outcome) :: rest) =
      outcome >>= fun value => (record.insert name value).fill rest := by
  cases outcome <;> rfl

/-- Filling fails with the first error among the values. -/
theorem fill_eq_error_iff {record : Record} {fields : List (String × Outcome Value)} {e : Error} :
    record.fill fields = .error e ↔ firstError? (fields.map Prod.snd) = some e := by
  induction fields generalizing record with
  | nil => simp [fill_nil]
  | cons field rest ih =>
      obtain ⟨name, outcome⟩ := field
      rw [fill_cons, List.map_cons]
      cases outcome with
      | ok value => exact ih
      | error e' => simp [bind, Except.bind]

/-- The names of a filled record are those it had and the new ones, each once. -/
theorem names_of_fill {record filled : Record} {fields : List (String × Outcome Value)}
    (hfill : record.fill fields = .ok filled) :
    filled.names = (fields.map Prod.fst).foldl
      (fun seen name => if name ∈ seen then seen else seen ++ [name]) record.names := by
  induction fields generalizing record with
  | nil =>
      cases hfill
      rfl
  | cons field rest ih =>
      obtain ⟨name, outcome⟩ := field
      rw [fill_cons, Outcome.bind_eq_ok] at hfill
      obtain ⟨value, -, hrest⟩ := hfill
      rw [ih hrest, names_insert]
      rfl

/-- The entries of a filled record are those it had and some of the new ones. -/
theorem mem_fields_of_fill {record filled : Record} {fields : List (String × Outcome Value)}
    (hfill : record.fill fields = .ok filled) {entry : String × Value}
    (hentry : entry ∈ filled.fields) :
    entry ∈ record.fields ∨ (entry.1, .ok entry.2) ∈ fields := by
  induction fields generalizing record with
  | nil =>
      cases hfill
      exact .inl hentry
  | cons field rest ih =>
      obtain ⟨name, outcome⟩ := field
      rw [fill_cons, Outcome.bind_eq_ok] at hfill
      obtain ⟨value, rfl, hrest⟩ := hfill
      rcases ih hrest with hbefore | hlater
      · rcases mem_fields_insert hbefore with rfl | hold
        · exact .inr List.mem_cons_self
        · exact .inl hold
      · exact .inr (List.mem_cons_of_mem _ hlater)

end Record

end Tabular
