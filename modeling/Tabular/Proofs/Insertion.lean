import Mathlib.Data.Finset.Card
import Tabular.Proofs.Shape

/-! # Records as maps

A record is a map that remembers an order. After any insertions there is one field for each
name among them, in the place where the name was first inserted and with the value that was
last inserted under it. An insertion makes no difference to the fields of other names.
-/

namespace Tabular.Record

variable {record : Record} {entries : List (String × Value)} {name other : String}
  {value old : Value}

theorem get?_eq_lookup (record : Record) (name : String) :
    record.get? name = record.fields.lookup name :=
  Row.valueFor?_eq_lookup record.fields name

theorem lookup_cons_ite (first : String) (value : Value) (fields : List (String × Value))
    (name : String) : ((first, value) :: fields).lookup name =
      if name = first then some value else fields.lookup name := by
  rw [List.lookup_cons]
  split
  next hsame => rw [if_pos (beq_iff_eq.mp hsame)]
  next hother => rw [if_neg (beq_eq_false_iff_ne.mp hother)]

theorem lookup_insertField (name : String) (value : Value) (fields : List (String × Value))
    (other : String) : (insertField name value fields).lookup other =
      if other = name then some value else fields.lookup other := by
  induction fields with
  | nil => exact lookup_cons_ite name value [] other
  | cons field rest ih =>
      obtain ⟨first, old⟩ := field
      rw [insertField]
      split
      next hfirst =>
        subst hfirst
        rw [lookup_cons_ite, lookup_cons_ite]
        split <;> rfl
      next hfirst =>
        rw [lookup_cons_ite, lookup_cons_ite, ih]
        by_cases hother : other = first
        · subst hother
          rw [if_pos rfl, if_neg hfirst, if_pos rfl]
        · rw [if_neg hother, if_neg hother]

theorem get?_insert (record : Record) (name : String) (value : Value) (other : String) :
    (record.insert name value).get? other =
      if other = name then some value else record.get? other := by
  rw [get?_eq_lookup, get?_eq_lookup]
  exact lookup_insertField name value record.fields other

theorem getElem?_insertField (hother : other ≠ name) {fields : List (String × Value)}
    {position : Nat} : (insertField name value fields)[position]? = some (other, old) ↔
      fields[position]? = some (other, old) := by
  induction fields generalizing position with
  | nil =>
      cases position with
      | zero => simp [insertField, hother.symm]
      | succ position => rfl
  | cons field rest ih =>
      obtain ⟨first, kept⟩ := field
      rw [insertField]
      split
      next hfirst =>
        -- The field is replaced here, and those behind it are left as they are.
        subst hfirst
        cases position with
        | zero => simp [hother.symm]
        | succ position => rfl
      next =>
        cases position with
        | zero => rfl
        | succ position => exact ih

/-- A field of another name is where it was, with the value that it had. -/
theorem getElem?_insert (hother : other ≠ name) {position : Nat} :
    (record.insert name value).fields[position]? = some (other, old) ↔
      record.fields[position]? = some (other, old) :=
  getElem?_insertField hother

theorem ofList_concat (entries : List (String × Value)) (entry : String × Value) :
    ofList (entries ++ [entry]) = (ofList entries).insert entry.1 entry.2 :=
  List.foldl_concat ..

theorem names_ofList (entries : List (String × Value)) :
    (ofList entries).names = (entries.map Prod.fst).eraseDups := by
  rw [← Fields.distinct_eq_eraseDups]
  induction entries using List.reverseRecOn with
  | nil => rfl
  | append_singleton entries entry ih =>
      rw [ofList_concat, names_insert, ih, List.map_append, List.map_singleton,
        Fields.distinct_concat]

theorem nodup_names_ofList (entries : List (String × Value)) : (ofList entries).names.Nodup := by
  rw [names_ofList, ← Fields.distinct_eq_eraseDups]
  exact (Fields.nodup_distinct _).1

theorem get?_ofList (entries : List (String × Value)) (name : String) :
    (ofList entries).get? name = entries.reverse.lookup name := by
  induction entries using List.reverseRecOn with
  | nil => rfl
  | append_singleton entries entry ih =>
      obtain ⟨last, value⟩ := entry
      rw [ofList_concat, get?_insert, ih, List.reverse_concat, lookup_cons_ite]

/-- What is left of an empty record after insertions, one at a time. -/
inductive Inserted : List (String × Value) → Record → Prop
  | nothing : Inserted [] .empty
  | insert {entries : List (String × Value)} {record : Record} (hbefore : Inserted entries record)
    (name : String) (value : Value) :
    Inserted (entries ++ [(name, value)]) (record.insert name value)

theorem inserted_iff : Inserted entries record ↔ record = ofList entries := by
  constructor
  · intro hinserted
    induction hinserted with
    | nothing => rfl
    | insert hbefore name value ih => rw [ofList_concat, ih]
  · rintro rfl
    induction entries using List.reverseRecOn with
    | nil => exact .nothing
    | append_singleton entries entry ih =>
        rw [ofList_concat]
        exact .insert ih entry.1 entry.2

/-- The record is the map that its insertions describe: it has the names in the order of their
first insertions, and under each name the value of the last one. -/
structure IsMapOf (record : Record) (entries : List (String × Value)) : Prop where
  distinct : record.names.Nodup
  names : record.names = (entries.map Prod.fst).eraseDups
  size : record.size = (entries.map Prod.fst).toFinset.card
  get? : ∀ name, record.get? name = entries.reverse.lookup name
  values : List.Forall₂ (fun name value => entries.reverse.lookup name = some value)
    record.names record.values

theorem ofList_isMapOf (entries : List (String × Value)) : (ofList entries).IsMapOf entries where
  distinct := nodup_names_ofList entries
  names := names_ofList entries
  size := by
    have hsame : (ofList entries).names.toFinset = (entries.map Prod.fst).toFinset := by
      ext name
      rw [names_ofList, List.mem_toFinset, List.mem_toFinset, List.mem_eraseDups]
    rw [← hsame, List.toFinset_card_of_nodup (nodup_names_ofList entries), names, List.length_map,
      size]
  get? := get?_ofList entries
  values := by
    have hvalues := forall₂_values (nodup_names_ofList entries)
    simpa only [get?_ofList] using hvalues

/-- Insertions one at a time leave the record that is made of all of them together, which is
the map that they describe. Another insertion leaves the fields of all other names where they
are, with their values. -/
theorem ofList_keeps_order (entries : List (String × Value)) :
    (∀ record, Inserted entries record ↔ record = ofList entries) ∧
      (ofList entries).IsMapOf entries ∧
      ∀ name value, Inserted (entries ++ [(name, value)]) ((ofList entries).insert name value) ∧
        ∀ other, other ≠ name → ∀ (position : Nat) (old : Value),
          ((ofList entries).insert name value).fields[position]? = some (other, old) ↔
            (ofList entries).fields[position]? = some (other, old) := by
  refine ⟨fun record => inserted_iff, ofList_isMapOf entries, fun name value => ⟨?_, ?_⟩⟩
  · exact .insert (inserted_iff.mpr rfl) name value
  · exact fun other hother position old => getElem?_insert hother

/-- The first name is inserted again, between two others. -/
theorem ofList_keeps_order_repeated :
    ofList [("b", .integer 2), ("a", .integer 1), ("b", .text "x")] =
        ⟨[("b", .text "x"), ("a", .integer 1)]⟩ ∧
      "b" ≠ "a" ∧
      (((ofList [("b", .integer 2), ("a", .integer 1), ("b", .text "x")]).insert "a"
        (.integer 5)).fields[0]? = some ("b", .text "x")) := by
  obtain ⟨-, -, hinsert⟩ :=
    ofList_keeps_order [("b", .integer 2), ("a", .integer 1), ("b", .text "x")]
  refine ⟨by decide, by decide, ?_⟩
  exact ((hinsert "a" (.integer 5)).2 "b" (by decide) 0 (.text "x")).mpr (by decide)

end Tabular.Record
