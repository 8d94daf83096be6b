import Tabular.Proofs.FirstChunk

/-! # Results of a growing table

A table only grows, and while a row is being written its file may end inside the row. What a
selection returns of the bytes that are there is the beginning of what it returns of more bytes,
or of a larger chunk of them: rows are cut from the start of the table, and one that is not yet
whole is left out.
-/

namespace Tabular

/-- The whole rows of a beginning of some content are the first rows of the content. -/
theorem Row.slices_of_begins {size count more : Nat} {content grown : Bytes}
    (hbegins : content <+: grown) (hcount : count ≤ more) (hwhole : count * size ≤ content.length) :
    ∃ rest, slices size more grown = slices size count content ++ rest := by
  obtain ⟨appended, rfl⟩ := hbegins
  obtain ⟨others, rfl⟩ := Nat.exists_eq_add_of_le hcount
  refine ⟨slices size others ((content ++ appended).drop (count * size)), ?_⟩
  rw [slices_add, ← slices_take hwhole (content ++ appended), List.take_left]

/-- A selection can be carried out with every smaller chunk that is not empty. -/
theorem Plan.ofSelection_of_le {chunkSize larger : Nat} {schema : Schema} {selection : Selection}
    {plan : Plan} (hplan : ofSelection larger schema selection = .ok plan) (hpos : 0 < chunkSize)
    (hle : chunkSize ≤ larger) : ofSelection chunkSize schema selection = .ok plan := by
  obtain ⟨⟨⟩, hlarger, hplan⟩ := Outcome.bind_eq_ok.mp hplan
  have hmax := (checkChunkSize_eq_ok_iff.mp hlarger).2
  exact Outcome.bind_eq_ok.mpr
    ⟨(), checkChunkSize_eq_ok_iff.mpr ⟨hpos, Nat.le_trans hle hmax⟩, hplan⟩

namespace Selection

variable {selection : Selection} {schema : Schema}

/-- Rows that are answered are so without those behind them. -/
theorem answerRows_of_append {first second : List Bytes} {records : List Record}
    (hanswer : selection.answerRows schema (first ++ second) = .ok records) :
    ∃ before, selection.answerRows schema first = .ok before ∧ before <+: records := by
  rw [answerRows_append] at hanswer
  obtain ⟨before, hbefore, hanswer⟩ := Outcome.bind_eq_ok.mp hanswer
  obtain ⟨after, -, hanswer⟩ := Outcome.bind_eq_ok.mp hanswer
  cases hanswer
  exact ⟨before, hbefore, List.prefix_append ..⟩

theorem rowsInChunk_mono {chunkSize larger : Nat} {content grown : Bytes} (hle : chunkSize ≤ larger)
    (hbegins : content <+: grown) :
    rowsInChunk schema chunkSize content ≤ rowsInChunk schema larger grown := by
  have hlength := hbegins.length_le
  exact Nat.div_le_div_right (by omega)

/-- What is answered of the first chunk of a content is answered alike of a smaller chunk of a
beginning of it, as far as that goes. -/
theorem answerFrom_begins {chunkSize larger : Nat} {content grown : Bytes} (hpos : 0 < chunkSize)
    (hle : chunkSize ≤ larger) (hbegins : content <+: grown) {result : QueryResult}
    (hanswer : selection.answerFrom larger schema (.ok (Chunk.ofContent grown 0 larger)) =
      .ok result) :
    ∃ part, selection.answerFrom chunkSize schema (.ok (Chunk.ofContent content 0 chunkSize)) =
        .ok part ∧ part.columns = result.columns ∧ part.rows <+: result.rows := by
  obtain ⟨plan, hplan, -⟩ := Outcome.bind_eq_ok.mp hanswer
  rw [answerFrom_ofContent hplan] at hanswer
  obtain ⟨records, hrecords, rfl⟩ := Outcome.map_eq_ok.mp hanswer
  have hwhole : rowsInChunk schema chunkSize content * schema.rowSize ≤ content.length :=
    Nat.le_trans (Nat.div_mul_le_self ..) (Nat.min_le_left ..)
  obtain ⟨rest, hrest⟩ := Row.slices_of_begins hbegins (rowsInChunk_mono hle hbegins) hwhole
  rw [hrest] at hrecords
  obtain ⟨before, hbefore, hfirst⟩ := answerRows_of_append hrecords
  rw [answerFrom_ofContent (Plan.ofSelection_of_le hplan hpos hle), hbefore]
  exact ⟨_, rfl, rfl, hfirst⟩

end Selection

namespace Engine

variable {σ τ Handle Handle' : Type} {engine : Engine (StateM σ) Handle}
  {later : Engine (StateM τ) Handle'} {state : σ} {grown : τ} {schema : Schema}
  {selection : Selection} {content whole : Bytes}

/-- If a selection from a table has a result, so has the selection with a smaller chunk, or from
what was there of the table before, be it in the middle of a row: the same columns, and rows with
which the others begin. The two may be kept in memory or in files. -/
theorem select_begins (hkeeps : engine.storage.Keeps state selection.table content)
    (hlater : later.storage.Keeps grown selection.table whole)
    (hresolve : engine.catalog.resolve selection.table = .ok schema)
    (hresolve' : later.catalog.resolve selection.table = .ok schema)
    (hbegins : content <+: whole) (hpos : 0 < engine.chunkSize)
    (hle : engine.chunkSize ≤ later.chunkSize) {result : QueryResult}
    (hselect : ((later.select selection).run grown).1 = .ok result) :
    ∃ part, ((engine.select selection).run state).1 = .ok part ∧
      part.columns = result.columns ∧ part.rows <+: result.rows := by
  obtain ⟨plan, hplan⟩ := exists_plan_of_select hresolve' hselect
  have hmax := (Plan.executes_of_ofSelection hplan).2.2
  rw [select_run hresolve' (readTable_run_of_keeps hlater hmax)] at hselect
  rw [select_run hresolve (readTable_run_of_keeps hkeeps (Nat.le_trans hle hmax))]
  exact Selection.answerFrom_begins hpos hle hbegins hselect

/-- The second label is being written, and not all that is there of it is read. -/
theorem select_begins_labels :
    let selection : Selection := ⟨.named ["id"], "Label", none⟩
    let engine : Engine (StateM Memory) Bytes := ⟨labelEngine.catalog, Memory.storage, 10⟩
    let torn := Memory.empty.put "Label" (labelBytes.take 11)
    ((labelEngine.select selection).run labelMemory).1 =
        .ok ⟨["id"], [⟨[("id", .integer 1)]⟩, ⟨[("id", .integer 2)]⟩], true, some 12⟩ ∧
      ∃ part, ((engine.select selection).run torn).1 = .ok part ∧ part.columns = ["id"] ∧
        part.rows <+: [⟨[("id", .integer 1)]⟩, ⟨[("id", .integer 2)]⟩] := by
  intro selection engine torn
  have hkeeps : engine.storage.Keeps torn selection.table (labelBytes.take 11) := .memory rfl
  have hlater : labelEngine.storage.Keeps labelMemory selection.table labelBytes := .memory rfl
  have hresolve : labelEngine.catalog.resolve selection.table = .ok labelTable := by decide
  have hselect : ((labelEngine.select selection).run labelMemory).1 =
      .ok ⟨["id"], [⟨[("id", .integer 1)]⟩, ⟨[("id", .integer 2)]⟩], true, some 12⟩ := by
    decide
  have hbegins : labelBytes.take 11 <+: labelBytes := List.take_prefix ..
  exact ⟨hselect, select_begins hkeeps hlater hresolve hresolve hbegins (by decide) (by decide)
    hselect⟩

end Engine

end Tabular
