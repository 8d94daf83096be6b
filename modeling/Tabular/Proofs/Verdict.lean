import Tabular.Proofs.Refusal

/-! # The verdict on values for a row

Named values make up a row, or there is one error that says what is wrong with them. The
first name that no column has decides before all else. Then each column in turn takes the
first value given for it, and the first column that finds none, or none that it can hold,
decides. Both depend on what is given for each name and not on the order of the names.
-/

namespace Tabular

namespace Cell

/-- A column of the type holds the value: integers that are 32-bit numbers where it is one
of integers, and any text where it is one of texts. -/
inductive Accepts : ColumnType → Value → Prop
  | integer {type : ColumnType} {n : Int64} (htype : type.isInteger = true)
    (hrange : -0x80000000 ≤ n.toInt ∧ n.toInt < 0x80000000) : Accepts type (.integer n)
  | text (width : Nat) (s : String) : Accepts (.char width) (.text s)

/-- The named column of the type does not hold the value, and the error says why. -/
inductive Rejects (column : String) : ColumnType → Value → Error → Prop
  | text {type : ColumnType} (s : String) (htype : type.isInteger = true) :
    Rejects column type (.text s) (.typeMismatch column type .text)
  | integer (width : Nat) (n : Int64) :
    Rejects column (.char width) (.integer n) (.typeMismatch column (.char width) .integer)
  | outOfRange {type : ColumnType} {n : Int64} (htype : type.isInteger = true)
    (hrange : ¬(-0x80000000 ≤ n.toInt ∧ n.toInt < 0x80000000)) :
    Rejects column type (.integer n) (.valueOutOfRange n type)

variable {column : String} {type : ColumnType} {value : Value} {e : Error}

theorem accepts_iff (column : String) :
    Accepts type value ↔ ∃ cell, encode column type value = .ok cell := by
  rw [exists_encode_iff]
  constructor
  · rintro (⟨htype, hrange⟩ | ⟨width, s⟩)
    · refine ⟨htype, fun n hn => ?_⟩
      cases hn
      exact hrange
    · exact ⟨rfl, nofun⟩
  · rintro ⟨hkind, hrange⟩
    cases value with
    | integer n => exact .integer hkind (hrange n rfl)
    | text s => cases type <;> first | exact .text _ s | cases hkind

theorem encode_eq_error : encode column type value = .error e ↔ Rejects column type value e := by
  constructor
  · intro hfails
    unfold encode at hfails
    split at hfails
    next => cases hfails
    next width n =>
      cases hfails
      exact .integer width n
    next n hchar =>
      split at hfails
      next => cases hfails
      next hrange =>
        cases hfails
        cases type with
        | int => exact .outOfRange rfl hrange
        | date => exact .outOfRange rfl hrange
        | char width => exact absurd rfl (hchar width)
    next s hchar =>
      cases hfails
      cases type with
      | int => exact .text s rfl
      | date => exact .text s rfl
      | char width => exact absurd rfl (hchar width)
  · rintro (⟨s, htype⟩ | ⟨width, n⟩ | ⟨htype, hrange⟩)
    · cases type <;> first | rfl | cases htype
    · rfl
    · rw [encode_integer htype, if_neg hrange]

end Cell

namespace Row

variable {schema : Schema} {values others : List (String × Value)} {column : Column} {e : Error}

/-! ## The first value given for a name -/

/-- Where no two values have one name, the value for a name is the one given with it. -/
theorem lookup_eq_some_iff (hdistinct : (values.map Prod.fst).Nodup) {name : String}
    {value : Value} : values.lookup name = some value ↔ (name, value) ∈ values := by
  rw [← valueFor?_eq_lookup, valueFor?]
  constructor
  · intro hfound
    obtain ⟨⟨other, found⟩, hfind, rfl⟩ := Option.map_eq_some_iff.mp hfound
    have hname := List.find?_some hfind
    rw [beq_iff_eq] at hname
    subst hname
    exact List.mem_of_find?_eq_some hfind
  · intro hmem
    have hfind : values.find? (fun entry => entry.1 == name) = some (name, value) :=
      find?_eq_some_of_mem hdistinct hmem
    rw [hfind]
    rfl

theorem lookup_perm (hperm : others.Perm values) (hdistinct : (values.map Prod.fst).Nodup)
    (name : String) : others.lookup name = values.lookup name := by
  have hdistinct' : (others.map Prod.fst).Nodup := (hperm.map Prod.fst).nodup_iff.mpr hdistinct
  apply Option.ext
  intro value
  rw [lookup_eq_some_iff hdistinct, lookup_eq_some_iff hdistinct', hperm.mem_iff]

/-! ## Names that no column has -/

/-- The name is the first of some names that no column of the schema has. -/
def FirstUnknown (schema : Schema) (names : List String) (name : String) : Prop :=
  name ∉ schema.columnNames ∧ ∃ before after, names = before ++ name :: after ∧
    ∀ earlier ∈ before, earlier ∈ schema.columnNames

theorem unknownName?_eq_some_iff {name : String} :
    unknownName? schema values = some name ↔ FirstUnknown schema (values.map Prod.fst) name := by
  rw [unknownName?, List.find?_eq_some_iff_append, FirstUnknown]
  simp only [List.contains_eq_mem, Bool.not_eq_true', decide_eq_false_iff_not, Bool.not_not,
    decide_eq_true_eq]

theorem encode_of_firstUnknown {name : String}
    (hfirst : FirstUnknown schema (values.map Prod.fst) name) :
    encode schema values = .error (.unknownColumn name) := by
  rw [encode, unknownName?_eq_some_iff.mpr hfirst]

/-- Some name is the first that no column has if there is any such name. -/
theorem exists_firstUnknown (hunknown : ∃ entry ∈ values, entry.1 ∉ schema.columnNames) :
    ∃ name, FirstUnknown schema (values.map Prod.fst) name := by
  obtain ⟨entry, hentry, hno⟩ := hunknown
  cases hname : unknownName? schema values with
  | none => exact absurd (unknownName?_eq_none_iff.mp hname entry hentry) hno
  | some name => exact ⟨name, unknownName?_eq_some_iff.mp hname⟩

/-! ## Columns that hold what is given for them -/

/-- The first value given for the column is one that it holds. -/
def Filled (values : List (String × Value)) (column : Column) : Prop :=
  ∃ value, values.lookup column.name = some value ∧ Cell.Accepts column.type value

/-- What is given for the column is at fault, and the error says why. -/
inductive Faults (values : List (String × Value)) (column : Column) : Error → Prop
  | missing (hmissing : values.lookup column.name = none) :
    Faults values column (.invalidArgument (.missingValue column.name))
  | rejected {value : Value} {e : Error} (hgiven : values.lookup column.name = some value)
    (hrejected : Cell.Rejects column.name column.type value e) : Faults values column e

theorem filled_iff : Filled values column ↔ ∃ cell, cellFor values column = .ok cell := by
  simp only [exists_cellFor_iff, Filled, Cell.accepts_iff column.name]

theorem cellFor_eq_error : cellFor values column = .error e ↔ Faults values column e := by
  rw [cellFor, valueFor?_eq_lookup]
  cases hgiven : values.lookup column.name with
  | none =>
      constructor
      · intro hfails
        cases hfails
        exact .missing hgiven
      · rintro (hmissing | ⟨hvalue, hrejected⟩)
        · rfl
        · rw [hgiven] at hvalue
          cases hvalue
  | some value =>
      constructor
      · intro hfails
        exact .rejected hgiven (Cell.encode_eq_error.mp hfails)
      · rintro (hmissing | ⟨hvalue, hrejected⟩)
        · rw [hgiven] at hmissing
          cases hmissing
        · rw [hgiven] at hvalue
          cases hvalue
          exact Cell.encode_eq_error.mpr hrejected

/-- Values for known names are encoded column by column. -/
theorem encode_of_known (hknown : ∀ entry ∈ values, entry.1 ∈ schema.columnNames) :
    encode schema values = (schema.columns.mapM (cellFor values)).map List.flatten := by
  rw [encode, unknownName?_eq_none_iff.mpr hknown]
  rfl

theorem exists_encode_of_known (hknown : ∀ entry ∈ values, entry.1 ∈ schema.columnNames) :
    (∃ row, encode schema values = .ok row) ↔ ∀ column ∈ schema.columns, Filled values column := by
  simp only [encode_of_known hknown, Outcome.map_eq_ok, filled_iff]
  constructor
  · rintro ⟨row, cells, hcells, -⟩ column hcolumn
    exact forall₂_exists_left (mapM_eq_ok_iff.mp hcells).flip column hcolumn
  · intro hfilled
    obtain ⟨cells, hcells⟩ := exists_mapM_ok hfilled
    exact ⟨cells.flatten, cells, hcells, rfl⟩

theorem encode_eq_error_of_known (hknown : ∀ entry ∈ values, entry.1 ∈ schema.columnNames) :
    encode schema values = .error e ↔ ∃ before column after,
      schema.columns = before ++ column :: after ∧ (∀ earlier ∈ before, Filled values earlier) ∧
        Faults values column e := by
  simp only [encode_of_known hknown, Outcome.map_eq_error, mapM_eq_error_iff, filled_iff,
    cellFor_eq_error]

/-- Where every name is known and given once, the order of the names makes no difference. -/
theorem encode_perm (hknown : ∀ entry ∈ values, entry.1 ∈ schema.columnNames)
    (hdistinct : (values.map Prod.fst).Nodup) (hperm : others.Perm values) :
    encode schema others = encode schema values := by
  have hcells : cellFor others = cellFor values := by
    funext column
    rw [cellFor, cellFor, valueFor?_eq_lookup, valueFor?_eq_lookup, lookup_perm hperm hdistinct]
  have hknown' : ∀ entry ∈ others, entry.1 ∈ schema.columnNames := fun entry hentry =>
    hknown entry (hperm.mem_iff.mp hentry)
  rw [encode_of_known hknown, encode_of_known hknown', hcells]

/-- A name that no column has is reported, and of several the first one given, whatever else is
wrong. Otherwise values make up a row exactly if every column holds the first value given for
it. If not, the first column of the schema that does not is reported: for want of a value, for
the kind of the value, or for its range. Names given once may be given in any order. -/
theorem encode_verdict (schema : Schema) (values : List (String × Value)) :
    ((∃ entry ∈ values, entry.1 ∉ schema.columnNames) →
      ∃ name, FirstUnknown schema (values.map Prod.fst) name ∧
        encode schema values = .error (.unknownColumn name)) ∧
    ((∀ entry ∈ values, entry.1 ∈ schema.columnNames) →
      ((∃ row, encode schema values = .ok row) ↔
        ∀ column ∈ schema.columns, Filled values column) ∧
      (∀ e, encode schema values = .error e ↔ ∃ before column after,
        schema.columns = before ++ column :: after ∧ (∀ earlier ∈ before, Filled values earlier) ∧
          Faults values column e) ∧
      ((values.map Prod.fst).Nodup → ∀ others, others.Perm values →
        encode schema others = encode schema values)) := by
  refine ⟨fun hunknown => ?_, fun hknown => ⟨exists_encode_of_known hknown,
    fun e => encode_eq_error_of_known hknown, fun hdistinct others => ?_⟩⟩
  · obtain ⟨name, hfirst⟩ := exists_firstUnknown hunknown
    exact ⟨name, hfirst, encode_of_firstUnknown hfirst⟩
  · exact encode_perm hknown hdistinct

/-- People with a short name and a day of birth. -/
def personTable : Schema where
  name := "Person"
  columns := [⟨"id", .int⟩, ⟨"name", .char 4⟩, ⟨"born", .date⟩]
  nonempty := by decide
  distinct := by decide
  narrow := by decide

/-- An unknown name comes before a text for an id, an id that is too large before a text for a
day and before the id that is given again, and a missing name before a text for a day. -/
theorem encode_verdict_people :
    encode personTable [("id", .text "x"), ("age", .integer 30), ("size", .integer 1)] =
        .error (.unknownColumn "age") ∧
      encode personTable [("born", .text "x"), ("id", .integer 2147483648), ("name", .text "Ann"),
        ("id", .integer 7)] = .error (.valueOutOfRange 2147483648 .int) ∧
      encode personTable [("born", .text "x"), ("id", .integer 7)] =
        .error (.invalidArgument (.missingValue "name")) ∧
      (∃ row, encode personTable [("id", .integer 7), ("name", .text "Ann"),
        ("born", .integer (-1)), ("id", .text "x")] = .ok row) ∧
      encode personTable [("born", .integer (-1)), ("name", .text "Ann"), ("id", .integer 7)] =
        encode personTable [("name", .text "Ann"), ("born", .integer (-1)), ("id", .integer 7)] := by
  refine ⟨?_, ?_, ?_, ?_, ?_⟩
  · obtain ⟨name, hfirst, hencode⟩ := (encode_verdict personTable
      [("id", .text "x"), ("age", .integer 30), ("size", .integer 1)]).1
        ⟨("age", .integer 30), by decide, by decide⟩
    have hage : unknownName? personTable
        [("id", .text "x"), ("age", .integer 30), ("size", .integer 1)] = some "age" := by decide
    cases hage.symm.trans (unknownName?_eq_some_iff.mpr hfirst)
    exact hencode
  · obtain ⟨-, hfaults, -⟩ := (encode_verdict personTable [("born", .text "x"),
      ("id", .integer 2147483648), ("name", .text "Ann"), ("id", .integer 7)]).2 (by decide)
    exact (hfaults _).mpr ⟨[], ⟨"id", .int⟩, _, rfl, nofun,
      .rejected rfl (.outOfRange rfl (by decide))⟩
  · obtain ⟨-, hfaults, -⟩ := (encode_verdict personTable [("born", .text "x"),
      ("id", .integer 7)]).2 (by decide)
    refine (hfaults _).mpr ⟨[⟨"id", .int⟩], ⟨"name", .char 4⟩, _, rfl, ?_, .missing rfl⟩
    exact List.forall_mem_singleton.mpr ⟨.integer 7, rfl, .integer rfl (by decide)⟩
  · obtain ⟨hfits, -, -⟩ := (encode_verdict personTable [("id", .integer 7), ("name", .text "Ann"),
      ("born", .integer (-1)), ("id", .text "x")]).2 (by decide)
    refine hfits.mpr ?_
    simp only [personTable, List.forall_mem_cons]
    exact ⟨⟨_, rfl, .integer rfl (by decide)⟩, ⟨_, rfl, .text 4 "Ann"⟩,
      ⟨_, rfl, .integer rfl (by decide)⟩, nofun⟩
  · obtain ⟨-, -, horder⟩ := (encode_verdict personTable [("name", .text "Ann"),
      ("born", .integer (-1)), ("id", .integer 7)]).2 (by decide)
    exact horder (by decide) _ (.swap _ _ _)

end Row

end Tabular
