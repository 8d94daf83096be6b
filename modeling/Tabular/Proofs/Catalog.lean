import Mathlib.Data.List.Perm.Basic
import Tabular.Catalog
import Tabular.Proofs.Outcome
import Tabular.Proofs.Schema

/-! # Looking up and registering tables

A name is resolved to the table of that name. A catalog is determined by its tables, in
whatever order they were registered. Several tables are registered one after the other
exactly if their names are new and pairwise different; otherwise the first of them whose
name is taken is reported.
-/

namespace Tabular.Catalog

variable {catalog made : Catalog} {schema : Schema} {schemas : List Schema}

theorem insertSorted_perm (schema : Schema) (tables : List Schema) :
    (insertSorted schema tables).Perm (schema :: tables) := by
  induction tables with
  | nil => exact .refl _
  | cons first rest ih =>
      rw [insertSorted]
      split
      · exact .refl _
      · exact (ih.cons first).trans (.swap schema first rest)

/-- Two catalogs with the same tables are the same. -/
theorem eq_of_perm {other : Catalog} (hperm : catalog.tables.Perm other.tables) :
    catalog = other := by
  have hasymm : ∀ a b : Schema, a ∈ catalog.tables → b ∈ other.tables →
      Utf8.Before a.name b.name → Utf8.Before b.name a.name → a = b := by
    -- Two tables that come before each other would come before themselves.
    intro a b _ _ hab hba
    exact absurd (hab.trans hba) (Utf8.Before.irrefl a.name)
  have htables : catalog.tables = other.tables :=
    hperm.eq_of_pairwise hasymm catalog.sorted other.sorted
  cases catalog
  cases other
  cases htables
  rfl

theorem nodup_names (catalog : Catalog) : catalog.names.Nodup := by
  refine List.pairwise_map.mpr (catalog.sorted.imp fun {a b} hbefore hname => ?_)
  rw [hname] at hbefore
  exact Utf8.Before.irrefl b.name hbefore

section Lookup

variable {table : String}

theorem resolve_of_mem (hschema : schema ∈ catalog.tables) :
    catalog.resolve schema.name = .ok schema := by
  rw [resolve, find?, find?_eq_some_of_mem catalog.nodup_names hschema]

/-- A name is resolved to the table of that name. -/
theorem resolve_eq_ok :
    catalog.resolve table = .ok schema ↔ schema ∈ catalog.tables ∧ schema.name = table := by
  constructor
  · intro hresolve
    rw [resolve] at hresolve
    split at hresolve
    next found hfind =>
      cases hresolve
      exact ⟨List.mem_of_find?_eq_some hfind, by simpa using List.find?_some hfind⟩
    next => cases hresolve
  · rintro ⟨hmem, rfl⟩
    exact resolve_of_mem hmem

theorem find?_eq_none :
    catalog.find? table = none ↔ ∀ schema ∈ catalog.tables, schema.name ≠ table := by
  simp [find?, List.find?_eq_none]

theorem resolve_eq_error {e : Error} :
    catalog.resolve table = .error e ↔
      (∀ schema ∈ catalog.tables, schema.name ≠ table) ∧ e = .unknownTable table := by
  rw [← find?_eq_none, resolve]
  cases catalog.find? table <;> simp [eq_comm]

theorem contains_iff :
    catalog.contains table = true ↔ ∃ schema ∈ catalog.tables, schema.name = table := by
  rw [contains, Option.isSome_iff_ne_none, ne_eq, find?_eq_none]
  simp

end Lookup

theorem register_eq_ok :
    catalog.register schema = .ok made ↔
      schema.name ∉ catalog.names ∧ made.tables.Perm (schema :: catalog.tables) := by
  unfold register
  split
  next htaken => simp [htaken]
  next hnew =>
    have hinserted := insertSorted_perm schema catalog.tables
    constructor
    · intro hmade
      cases hmade
      exact ⟨hnew, hinserted⟩
    · rintro ⟨-, hperm⟩
      exact congrArg Except.ok (eq_of_perm (hinserted.trans hperm.symm))

theorem register_eq_error {e : Error} :
    catalog.register schema = .error e ↔
      schema.name ∈ catalog.names ∧ e = .invalidArgument (.tableExists schema.name) := by
  unfold register
  split
  next htaken => simp [htaken, eq_comm]
  next hnew => simp [hnew]

theorem exists_register (hnew : schema.name ∉ catalog.names) :
    ∃ next, catalog.register schema = .ok next :=
  ⟨_, dif_neg hnew⟩

section Runs

variable {next : Catalog} {rest : List Schema}

theorem append_perm (hnext : next.tables.Perm (schema :: catalog.tables)) (rest : List Schema) :
    (rest ++ next.tables).Perm (schema :: rest ++ catalog.tables) :=
  (hnext.append_left rest).trans List.perm_middle

theorem names_perm (hnext : next.tables.Perm (schema :: catalog.tables)) (rest : List Schema) :
    (rest.map Schema.name ++ next.names).Perm
      ((schema :: rest).map Schema.name ++ catalog.names) := by
  have hperm := (append_perm hnext rest).map Schema.name
  rw [List.map_append, List.map_append] at hperm
  exact hperm

theorem perm_of_registerAll (hmade : schemas.foldlM register catalog = .ok made) :
    (schemas.map Schema.name ++ catalog.names).Nodup ∧
      made.tables.Perm (schemas ++ catalog.tables) := by
  induction schemas generalizing catalog with
  | nil =>
      cases hmade
      exact ⟨nodup_names made, .refl _⟩
  | cons schema rest ih =>
      rw [List.foldlM_cons, Outcome.bind_eq_ok] at hmade
      obtain ⟨next, hregister, hrest⟩ := hmade
      obtain ⟨-, hnext⟩ := register_eq_ok.mp hregister
      obtain ⟨hdistinct, hperm⟩ := ih hrest
      exact ⟨(names_perm hnext rest).nodup_iff.mp hdistinct, hperm.trans (append_perm hnext rest)⟩

theorem exists_registerAll (hdistinct : (schemas.map Schema.name ++ catalog.names).Nodup) :
    ∃ made, schemas.foldlM register catalog = .ok made := by
  induction schemas generalizing catalog with
  | nil => exact ⟨catalog, rfl⟩
  | cons schema rest ih =>
      have hnew : schema.name ∉ catalog.names := fun htaken =>
        (List.nodup_cons.mp hdistinct).1 (List.mem_append_right _ htaken)
      obtain ⟨next, hregister⟩ := exists_register hnew
      obtain ⟨-, hnext⟩ := register_eq_ok.mp hregister
      obtain ⟨made, hmade⟩ := ih ((names_perm hnext rest).nodup_iff.mpr hdistinct)
      exact ⟨made, by rw [List.foldlM_cons, hregister]; exact hmade⟩

/-- Tables are registered one after the other exactly if no name is taken, and then the
catalog has them besides those it had. -/
theorem registerAll_eq_ok :
    schemas.foldlM register catalog = .ok made ↔
      (schemas.map Schema.name ++ catalog.names).Nodup ∧
        made.tables.Perm (schemas ++ catalog.tables) := by
  constructor
  · exact perm_of_registerAll
  · rintro ⟨hdistinct, hperm⟩
    obtain ⟨other, hother⟩ := exists_registerAll hdistinct
    rw [hother, eq_of_perm (hperm.trans (perm_of_registerAll hother).2.symm)]

/-- Otherwise the first table is reported whose name is taken when its turn comes. -/
theorem registerAll_eq_error {e : Error} :
    schemas.foldlM register catalog = .error e ↔
      ∃ before schema after, schemas = before ++ schema :: after ∧
        (before.map Schema.name ++ catalog.names).Nodup ∧
        schema.name ∈ before.map Schema.name ++ catalog.names ∧
        e = .invalidArgument (.tableExists schema.name) := by
  constructor
  · intro hfails
    induction schemas generalizing catalog with
    | nil => cases hfails
    | cons schema rest ih =>
        rw [List.foldlM_cons, Outcome.bind_eq_error] at hfails
        rcases hfails with hfails | ⟨next, hregister, hrest⟩
        · obtain ⟨htaken, rfl⟩ := register_eq_error.mp hfails
          exact ⟨[], schema, rest, rfl, nodup_names catalog, htaken, rfl⟩
        · obtain ⟨-, hnext⟩ := register_eq_ok.mp hregister
          obtain ⟨before, failing, after, rfl, hdistinct, htaken, rfl⟩ := ih hrest
          have hnames := names_perm hnext before
          exact ⟨schema :: before, failing, after, rfl, hnames.nodup_iff.mp hdistinct,
            hnames.mem_iff.mp htaken, rfl⟩
  · rintro ⟨before, schema, after, rfl, hdistinct, htaken, rfl⟩
    -- The tables before it are registered, so its name is taken when its turn comes.
    obtain ⟨made, hmade⟩ := exists_registerAll hdistinct
    have hnames := (perm_of_registerAll hmade).2.map Schema.name
    rw [List.map_append] at hnames
    have hregister := register_eq_error.mpr ⟨hnames.mem_iff.mpr htaken, rfl⟩
    rw [List.foldlM_append, hmade]
    change (schema :: after).foldlM register made = _
    rw [List.foldlM_cons, hregister]
    rfl

end Runs

/-- Tables may be registered in any order. -/
theorem registerAll_perm {others : List Schema} (hperm : schemas.Perm others)
    (hmade : schemas.foldlM register catalog = .ok made) :
    others.foldlM register catalog = .ok made := by
  obtain ⟨hdistinct, htables⟩ := registerAll_eq_ok.mp hmade
  refine registerAll_eq_ok.mpr ⟨?_, ?_⟩
  · exact ((hperm.map Schema.name).append_right catalog.names).nodup_iff.mp hdistinct
  · exact htables.trans (hperm.append_right catalog.tables)

theorem ofSchemas_eq_ok :
    ofSchemas schemas = .ok made ↔
      (schemas.map Schema.name).Nodup ∧ made.tables.Perm schemas := by
  have hempty : empty.names = [] := rfl
  have hnone : empty.tables = [] := rfl
  rw [ofSchemas, registerAll_eq_ok, hempty, hnone, List.append_nil, List.append_nil]

/-- Tables make up no catalog if one of them has the name of an earlier one, and the first
such is reported. -/
theorem ofSchemas_eq_error {e : Error} :
    ofSchemas schemas = .error e ↔
      ∃ before schema after, schemas = before ++ schema :: after ∧
        (before.map Schema.name).Nodup ∧ schema.name ∈ before.map Schema.name ∧
        e = .invalidArgument (.tableExists schema.name) := by
  have hempty : empty.names = [] := rfl
  simp only [ofSchemas, registerAll_eq_error, hempty, List.append_nil]

theorem exists_ofSchemas_iff :
    (∃ catalog, ofSchemas schemas = .ok catalog) ↔ (schemas.map Schema.name).Nodup := by
  constructor
  · rintro ⟨catalog, hcatalog⟩
    exact (ofSchemas_eq_ok.mp hcatalog).1
  · intro hdistinct
    have hempty : empty.names = [] := rfl
    refine exists_registerAll ?_
    rw [hempty, List.append_nil]
    exact hdistinct

end Tabular.Catalog
