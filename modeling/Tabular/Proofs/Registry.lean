import Tabular.Proofs.Document

/-! # Catalogs that grow

A catalog starts empty, with the builtin table, or with the tables of a document. From then on
schemas are registered one by one, each of them for good or not at all: a name keeps the first
schema that was registered under it, and a schema that comes too late changes nothing.
-/

namespace Tabular.Catalog

variable {catalog start : Catalog} {schema : Schema} {schemas : List Schema} {table : String}

/-- The catalog is one to start with, and has these schemas. -/
inductive Begins : Catalog → List Schema → Prop
  | empty : Begins .empty []
  | builtin : Begins .builtin [userTable]
  | document {text : String} {listed : List Schema} {catalog : Catalog} (hlists : Lists text listed)
    (hread : ofText text = .ok catalog) : Begins catalog listed

/-- Registers a schema in place, with the schema for an answer. A catalog that refuses it stays
as it is. -/
def registering (schema : Schema) : StateM Catalog (Outcome Schema) := do
  match (← get).register schema with
  | .error e => return .error e
  | .ok next =>
    set next
    return .ok schema

/-- Registers schemas one after the other, whether or not those before were refused. -/
def registerEach (schemas : List Schema) : StateM Catalog (List (Outcome Schema)) :=
  schemas.mapM registering

/-- The schemas that were registered, by the answers. -/
def registered (outcomes : List (Outcome Schema)) : List Schema :=
  outcomes.filterMap Except.toOption

/-- The catalog is the map of these schemas from their names, and lists the names in byte order. -/
structure Maps (catalog : Catalog) (schemas : List Schema) : Prop where
  stored : ∀ schema ∈ catalog.tables, catalog.resolve schema.name = .ok schema
  resolve_ok : ∀ table schema, catalog.resolve table = .ok schema ↔
    schema ∈ schemas ∧ schema.name = table
  resolve_error : ∀ table e, catalog.resolve table = .error e ↔
    (∀ schema ∈ schemas, schema.name ≠ table) ∧ e = .unknownTable table
  contains : ∀ table, catalog.contains table = true ↔ ∃ schema ∈ schemas, schema.name = table
  sorted : catalog.names.Pairwise Utf8.Before
  size : catalog.names.length = catalog.size ∧ catalog.size = schemas.length

/-- A catalog is the map of its tables, in whatever order they are given. -/
theorem maps_of_perm (hperm : catalog.tables.Perm schemas) : catalog.Maps schemas where
  stored schema hschema := resolve_of_mem hschema
  resolve_ok table schema := by rw [resolve_eq_ok, hperm.mem_iff]
  resolve_error table e := by simp only [resolve_eq_error, hperm.mem_iff]
  contains table := by simp only [contains_iff, hperm.mem_iff]
  sorted := List.pairwise_map.mpr catalog.sorted
  size := ⟨List.length_map _, hperm.length_eq⟩

theorem Begins.perm {listed : List Schema} (hbegins : start.Begins listed) :
    start.tables.Perm listed := by
  cases hbegins with
  | empty => exact .refl _
  | builtin => exact .refl _
  | document hlists hread =>
      rw [ofText_of_lists hlists] at hread
      exact (ofSchemas_eq_ok.mp hread).2

/-- Whatever document is read as a catalog, the catalog starts with what the document lists. -/
theorem exists_begins_of_ofText {text : String} (hread : ofText text = .ok start) :
    ∃ listed, Lists text listed ∧ start.Begins listed := by
  obtain ⟨listed, hlists, -⟩ := exists_ofText_iff.mp ⟨start, hread⟩
  exact ⟨listed, hlists, .document hlists hread⟩

/-! ## Registering one by one -/

theorem registering_run (schema : Schema) (catalog : Catalog) :
    (registering schema).run catalog =
      match catalog.register schema with
      | .ok next => (.ok schema, next)
      | .error e => (.error e, catalog) := by
  have hget : (get : StateM Catalog Catalog).run catalog = (catalog, catalog) := rfl
  rw [registering, run_bind_of_run hget]
  cases catalog.register schema <;> rfl

/-- A schema with a new name is registered besides those that are there. -/
theorem registering_of_new (hnew : schema.name ∉ catalog.names) :
    ∃ next, (registering schema).run catalog = (.ok schema, next) ∧
      next.tables.Perm (schema :: catalog.tables) := by
  obtain ⟨next, hregister⟩ := exists_register hnew
  refine ⟨next, ?_, (register_eq_ok.mp hregister).2⟩
  rw [registering_run, hregister]

/-- A schema whose name is taken is refused, and the catalog is as before. -/
theorem registering_of_taken (htaken : schema.name ∈ catalog.names) :
    (registering schema).run catalog =
      (.error (.invalidArgument (.tableExists schema.name)), catalog) := by
  rw [registering_run, register_eq_error.mpr ⟨htaken, rfl⟩]

/-- The schema was registered, or refused for its name. -/
def Answers (schema : Schema) (outcome : Outcome Schema) : Prop :=
  outcome = .ok schema ∨ outcome = .error (.invalidArgument (.tableExists schema.name))

/-- After any registrations a catalog has the tables it had and those that were registered. -/
theorem registerEach_run (schemas : List Schema) (catalog : Catalog) :
    List.Forall₂ Answers schemas ((registerEach schemas).run catalog).1 ∧
      ((registerEach schemas).run catalog).2.tables.Perm
        (registered ((registerEach schemas).run catalog).1 ++ catalog.tables) := by
  induction schemas generalizing catalog with
  | nil => exact ⟨.nil, .refl _⟩
  | cons schema rest ih =>
      rw [registerEach, mapM_run_cons]
      by_cases htaken : schema.name ∈ catalog.names
      · rw [registering_of_taken htaken]
        obtain ⟨hanswers, hperm⟩ := ih catalog
        exact ⟨.cons (.inr rfl) hanswers, hperm⟩
      · obtain ⟨next, hregister, hnext⟩ := registering_of_new htaken
        rw [hregister]
        obtain ⟨hanswers, hperm⟩ := ih next
        exact ⟨.cons (.inl rfl) hanswers, hperm.trans (append_perm hnext _)⟩

/-- What a name resolves to is never changed by registering. -/
theorem resolve_registerEach (hresolve : catalog.resolve table = .ok schema)
    (schemas : List Schema) : ((registerEach schemas).run catalog).2.resolve table = .ok schema := by
  obtain ⟨hmem, hname⟩ := resolve_eq_ok.mp hresolve
  obtain ⟨-, hperm⟩ := registerEach_run schemas catalog
  apply resolve_eq_ok.mpr
  exact ⟨hperm.mem_iff.mpr (List.mem_append_right _ hmem), hname⟩

/-- A document that can be read begins with the schemas it lists. After any registrations a
catalog maps exactly the names of the schemas that it began with or that were registered since,
and each to that schema, in byte order. Registering more does not change what a name resolves
to. The next schema is registered exactly if its name is not there, and otherwise the catalog
stays the same. -/
theorem registerEach_grows :
    (∀ text start, ofText text = .ok start → ∃ listed, Lists text listed ∧ start.Begins listed) ∧
    ∀ start listed, Begins start listed → ∀ schemas,
      let outcomes := ((registerEach schemas).run start).1
      let catalog := ((registerEach schemas).run start).2
      List.Forall₂ Answers schemas outcomes ∧ catalog.Maps (registered outcomes ++ listed) ∧
        (∀ table schema, catalog.resolve table = .ok schema → ∀ later,
          ((registerEach later).run catalog).2.resolve table = .ok schema) ∧
        ∀ schema, let step := (registering schema).run catalog
          (step.1 = .ok schema ↔ catalog.contains schema.name = false) ∧
            ((∃ e, step.1 = .error e) → step.2 = catalog) := by
  refine ⟨fun text start hread => exists_begins_of_ofText hread, ?_⟩
  intro start listed hbegins schemas outcomes catalog
  obtain ⟨hanswers, hperm⟩ := registerEach_run schemas start
  refine ⟨hanswers, maps_of_perm (hperm.trans (hbegins.perm.append_left _)), ?_, ?_⟩
  · intro table schema hresolve later
    exact resolve_registerEach hresolve later
  · intro schema
    have hcontains : catalog.contains schema.name = true ↔ schema.name ∈ catalog.names := by
      rw [contains_iff, names, List.mem_map]
    rw [← Bool.not_eq_true, hcontains]
    by_cases htaken : schema.name ∈ catalog.names
    · rw [registering_of_taken htaken]
      simp [htaken]
    · obtain ⟨next, hregister, -⟩ := registering_of_new htaken
      rw [hregister]
      simp [htaken]

/-- Another table of the name of the builtin one. -/
def namesakeTable : Schema where
  name := "User"
  columns := [⟨"name", .char 8⟩]
  nonempty := by decide
  distinct := by decide
  narrow := by decide

theorem registerEach_grows_users :
    let outcomes := ((registerEach [namesakeTable, oddTable]).run .builtin).1
    let catalog := ((registerEach [namesakeTable, oddTable]).run .builtin).2
    outcomes = [.error (.invalidArgument (.tableExists "User")), .ok oddTable] ∧
      catalog.Maps [oddTable, userTable] ∧
      ((registerEach [namesakeTable]).run catalog).2.resolve "User" = .ok userTable ∧
      ((registering namesakeTable).run catalog).2 = catalog := by
  intro outcomes catalog
  have houtcomes : outcomes = [.error (.invalidArgument (.tableExists "User")), .ok oddTable] := by
    decide +kernel
  obtain ⟨-, hmaps, hlater, hnext⟩ :=
    registerEach_grows.2 .builtin [userTable] .builtin [namesakeTable, oddTable]
  have hregistered : registered outcomes = [oddTable] := by
    rw [houtcomes]
    rfl
  have huser : catalog.resolve "User" = .ok userTable := by decide +kernel
  have hrefused : ∃ e, ((registering namesakeTable).run catalog).1 = .error e :=
    ⟨.invalidArgument (.tableExists "User"), by decide +kernel⟩
  refine ⟨houtcomes, ?_, hlater _ _ huser _, (hnext namesakeTable).2 hrefused⟩
  change catalog.Maps (registered outcomes ++ [userTable]) at hmaps
  rw [hregistered] at hmaps
  exact hmaps

end Tabular.Catalog
