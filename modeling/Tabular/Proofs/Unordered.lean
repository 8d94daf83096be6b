import Mathlib.Data.List.Nodup
import Tabular.Catalog.Registry
import Tabular.Proofs.Catalog

/-! # Catalogs for registries

The catalog of the same tables stands for a registry, in whatever order the registry keeps them:
both answer every question alike, register the same schemas and are read from the same documents.
Sorting the tables of a registry yields the tables of the catalog.
-/

namespace Tabular

namespace Registry

variable {registry : Registry} {catalog : Catalog} {schema : Schema} {schemas : List Schema}

/-- The registry and the catalog have the same tables. -/
def Holds (registry : Registry) (catalog : Catalog) : Prop :=
  registry.tables.Perm catalog.tables

/-- The registry and the catalog answer every question alike. -/
structure Agrees (registry : Registry) (catalog : Catalog) : Prop where
  resolve : ∀ table, registry.resolve table = catalog.resolve table
  contains : ∀ table, registry.contains table = catalog.contains table
  size : registry.size = catalog.size
  isEmpty : registry.isEmpty = catalog.isEmpty
  listTables : registry.listTables = catalog.names
  toText : registry.toText = catalog.toText

theorem upTo_iff {a b : String} : upTo a b = true ↔ ¬ Utf8.Before b a := by
  simp [upTo]

theorem byName_iff {a b : Schema} : byName a b = true ↔ ¬ Utf8.Before b.name a.name :=
  upTo_iff

theorem byName_trans {a b c : Schema} (hab : byName a b = true) (hbc : byName b c = true) :
    byName a c = true := by
  rw [byName_iff] at *
  intro hca
  -- Then b, which is not before a, would come before a through c.
  by_cases hname : b.name = c.name
  · rw [hname] at hab
    exact hab hca
  · exact hab ((Utf8.Before.connected (Ne.symm hname) hbc).trans hca)

theorem byName_total (a b : Schema) : (byName a b || byName b a) = true := by
  rw [Bool.or_eq_true, byName_iff, byName_iff, ← not_and_or]
  rintro ⟨hba, hab⟩
  exact Utf8.Before.irrefl a.name (hab.trans hba)

/-- Sorting the tables of a registry yields those of the catalog. -/
theorem Holds.sort_eq (hholds : registry.Holds catalog) :
    registry.tables.mergeSort byName = catalog.tables := by
  have hperm : (registry.tables.mergeSort byName).Perm catalog.tables :=
    (List.mergeSort_perm registry.tables byName).trans hholds
  have hsorted : (registry.tables.mergeSort byName).Pairwise fun a b => byName a b = true :=
    List.pairwise_mergeSort @byName_trans byName_total _
  have hcatalog : catalog.tables.Pairwise fun a b => byName a b = true :=
    catalog.sorted.imp fun hbefore => byName_iff.mpr fun hback =>
      Utf8.Before.irrefl _ (hbefore.trans hback)
  refine hperm.eq_of_pairwise (fun a b ha hb hab hba => ?_) hsorted hcatalog
  refine List.inj_on_of_nodup_map catalog.nodup_names (hperm.mem_iff.mp ha) hb ?_
  by_contra hne
  exact byName_iff.mp hab (Utf8.Before.connected hne (byName_iff.mp hba))

/-- Among tables with names of their own it makes no difference which comes first. -/
theorem Holds.find?_eq (hholds : registry.Holds catalog) (table : String) :
    registry.find? table = catalog.find? table := by
  cases hfound : registry.find? table with
  | none =>
      rw [find?, List.find?_eq_none] at hfound
      rw [eq_comm, Catalog.find?, List.find?_eq_none]
      exact fun schema hschema => hfound schema (hholds.mem_iff.mpr hschema)
  | some schema =>
      have hmem : schema ∈ catalog.tables := hholds.mem_iff.mp (List.mem_of_find?_eq_some hfound)
      have hname : schema.name = table := by simpa using List.find?_some hfound
      rw [← hname, Catalog.find?, find?_eq_some_of_mem catalog.nodup_names hmem]

theorem Holds.agrees (hholds : registry.Holds catalog) : registry.Agrees catalog where
  resolve table := by
    rw [Registry.resolve, hholds.find?_eq]
    rfl
  contains table := by
    rw [contains, hholds.find?_eq, Catalog.contains]
  size := by
    rw [Registry.size, Catalog.size, hholds.length_eq]
  isEmpty := by
    rw [Registry.isEmpty, Catalog.isEmpty, hholds.isEmpty_eq]
  listTables := by
    have hsort : (registry.tables.mergeSort byName).map Schema.name =
        (registry.tables.map Schema.name).mergeSort upTo :=
      List.map_mergeSort fun _ _ _ _ => rfl
    rw [Registry.listTables, ← hsort, hholds.sort_eq, Catalog.names]
  toText := by
    rw [toText, hholds.sort_eq, Catalog.toText, Catalog.toJson]

/-- Both have been made, and have the same tables, or both have failed alike. -/
inductive Alike : Outcome Registry → Outcome Catalog → Prop
  | failed (e : Error) : Alike (.error e) (.error e)
  | made {registry : Registry} {catalog : Catalog} (hholds : registry.Holds catalog) :
      Alike (.ok registry) (.ok catalog)

theorem Holds.register (hholds : registry.Holds catalog) (schema : Schema) :
    Alike (registry.register schema) (catalog.register schema) := by
  have hnames : schema.name ∈ registry.tables.map Schema.name ↔ schema.name ∈ catalog.names :=
    (hholds.map Schema.name).mem_iff
  by_cases htaken : schema.name ∈ catalog.names
  · rw [Registry.register, dif_pos (hnames.mpr htaken),
      Catalog.register_eq_error.mpr ⟨htaken, rfl⟩]
    exact .failed _
  · obtain ⟨next, hnext⟩ := Catalog.exists_register htaken
    rw [Registry.register, dif_neg (mt hnames.mp htaken), hnext]
    exact .made ((hholds.cons schema).trans (Catalog.register_eq_ok.mp hnext).2.symm)

theorem Holds.registerAll (hholds : registry.Holds catalog) (schemas : List Schema) :
    Alike (schemas.foldlM Registry.register registry)
      (schemas.foldlM Catalog.register catalog) := by
  induction schemas generalizing registry catalog with
  | nil => exact .made hholds
  | cons schema rest ih =>
      rw [List.foldlM_cons, List.foldlM_cons]
      have hstep := hholds.register schema
      revert hstep
      generalize registry.register schema = made, catalog.register schema = counterpart
      rintro (⟨e⟩ | ⟨hnext⟩)
      · exact .failed e
      · exact ih hnext

theorem holds_empty : empty.Holds .empty := .refl _

theorem holds_builtin : builtin.Holds .builtin := .refl _

/-- A document is read as a registry exactly if it is read as a catalog, and fails for the same
reason. -/
theorem ofText_alike (text : String) : Alike (ofText text) (Catalog.ofText text) := by
  rw [ofText, Catalog.ofText]
  cases (Catalog.readSchemas text).mapError Error.serialization with
  | error e => exact .failed e
  | ok schemas => exact holds_empty.registerAll schemas

end Registry

end Tabular
