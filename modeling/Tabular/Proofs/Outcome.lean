import Mathlib.Data.List.Forall2
import Tabular.Error

/-! # Outcomes in sequence

Several outcomes asked for one after the other fail with the first error among
them. The traversals of lists that the library uses are described by it: when
they fail and with what, and what they return if they do not.
-/

namespace Tabular

variable {α β : Type}

theorem Outcome.bind_eq_ok {ε : Type} {first : Except ε α} {next : α → Except ε β} {b : β} :
    first >>= next = .ok b ↔ ∃ a, first = .ok a ∧ next a = .ok b := by
  cases first <;> simp [bind, Except.bind]

theorem Outcome.bind_eq_error {ε : Type} {first : Except ε α} {next : α → Except ε β} {e : ε} :
    first >>= next = .error e ↔ first = .error e ∨ ∃ a, first = .ok a ∧ next a = .error e := by
  cases first <;> simp [bind, Except.bind]

theorem Outcome.map_eq_ok {ε : Type} {outcome : Except ε α} {f : α → β} {b : β} :
    outcome.map f = .ok b ↔ ∃ a, outcome = .ok a ∧ f a = b := by
  cases outcome <;> simp [Except.map]

theorem Outcome.map_eq_error {ε : Type} {outcome : Except ε α} {f : α → β} {e : ε} :
    outcome.map f = .error e ↔ outcome = .error e := by
  cases outcome <;> simp [Except.map]

theorem Outcome.map_map {ε γ : Type} (outcome : Except ε α) (f : α → β) (g : β → γ) :
    (outcome.map f).map g = outcome.map fun a => g (f a) := by
  cases outcome <;> rfl

theorem Outcome.mapError_eq_ok {ε δ : Type} {outcome : Except ε α} {f : ε → δ} {a : α} :
    outcome.mapError f = .ok a ↔ outcome = .ok a := by
  cases outcome <;> simp [Except.mapError]

/-- The first error among outcomes. -/
def firstError? : List (Outcome α) → Option Error
  | [] => none
  | .ok _ :: rest => firstError? rest
  | .error e :: _ => some e

@[simp] theorem firstError?_nil : firstError? ([] : List (Outcome α)) = none := rfl

@[simp] theorem firstError?_ok_cons (a : α) (rest : List (Outcome α)) :
    firstError? (.ok a :: rest) = firstError? rest := rfl

@[simp] theorem firstError?_error_cons (e : Error) (rest : List (Outcome α)) :
    firstError? (.error e :: rest) = some e := rfl

theorem firstError?_append (first second : List (Outcome α)) :
    firstError? (first ++ second) = (firstError? first).or (firstError? second) := by
  induction first with
  | nil => rfl
  | cons outcome rest ih =>
      cases outcome with
      | ok a => simpa using ih
      | error e => rfl

/-- There is no error exactly if every outcome is a success. -/
theorem firstError?_eq_none_iff {outcomes : List (Outcome α)} :
    firstError? outcomes = none ↔ ∀ outcome ∈ outcomes, ∃ a, outcome = .ok a := by
  induction outcomes with
  | nil => simp
  | cons outcome rest ih =>
      cases outcome with
      | ok a => simp [ih]
      | error e => simp

/-- The first error is the one before which every outcome is a success. -/
theorem firstError?_eq_some_iff {outcomes : List (Outcome α)} {e : Error} :
    firstError? outcomes = some e ↔
      ∃ before after, outcomes = before ++ .error e :: after ∧
        ∀ outcome ∈ before, ∃ a, outcome = .ok a := by
  constructor
  · intro hfirst
    induction outcomes with
    | nil => cases hfirst
    | cons outcome rest ih =>
        cases outcome with
        | ok a =>
            obtain ⟨before, after, rfl, hbefore⟩ := ih hfirst
            refine ⟨.ok a :: before, after, rfl, ?_⟩
            simpa using hbefore
        | error e' =>
            cases hfirst
            exact ⟨[], rest, rfl, by simp⟩
  · rintro ⟨before, after, rfl, hbefore⟩
    rw [firstError?_append, firstError?_eq_none_iff.mpr hbefore]
    rfl

theorem mem_of_firstError? {outcomes : List (Outcome α)} {e : Error}
    (hfirst : firstError? outcomes = some e) : .error e ∈ outcomes := by
  obtain ⟨before, after, rfl, -⟩ := firstError?_eq_some_iff.mp hfirst
  exact List.mem_append_right _ List.mem_cons_self

/-- Where every part has the same first error as one outcome, so have all parts
together and all these outcomes. -/
theorem firstError?_flatMap {parts : α → List (Outcome β)} {γ : Type} {whole : α → Outcome γ}
    {items : List α}
    (hparts : ∀ item ∈ items, firstError? (parts item) = firstError? [whole item]) :
    firstError? (items.flatMap parts) = firstError? (items.map whole) := by
  induction items with
  | nil => rfl
  | cons item rest ih =>
      obtain ⟨hitem, hrest⟩ := List.forall_mem_cons.mp hparts
      rw [List.flatMap_cons, firstError?_append, hitem, ih hrest, List.map_cons]
      cases whole item <;> rfl

/-- A traversal succeeds if every step does, with the results of the steps. -/
theorem mapM_eq_ok_iff {ε : Type} {f : α → Except ε β} {items : List α} {results : List β} :
    items.mapM f = .ok results ↔ List.Forall₂ (fun item result => f item = .ok result)
      items results := by
  induction items generalizing results with
  | nil =>
      cases results <;> simp [pure, Except.pure]
  | cons item rest ih =>
      simp only [List.mapM_cons, Outcome.bind_eq_ok, pure, Except.pure, Except.ok.injEq, ih]
      constructor
      · rintro ⟨result, hresult, others, hothers, rfl⟩
        exact .cons hresult hothers
      · rintro (_ | ⟨hresult, hothers⟩)
        exact ⟨_, hresult, _, hothers, rfl⟩

/-- A traversal fails with the first error of its steps. -/
theorem mapM_eq_error_iff_firstError? {f : α → Outcome β} {items : List α} {e : Error} :
    items.mapM f = .error e ↔ firstError? (items.map f) = some e := by
  induction items with
  | nil => simp [pure, Except.pure]
  | cons item rest ih =>
      rw [List.mapM_cons, List.map_cons]
      cases f item with
      | error e' => simp [bind, Except.bind]
      | ok b =>
          rw [firstError?_ok_cons, ← ih]
          cases rest.mapM f <;> simp [bind, Except.bind, pure, Except.pure]

/-- A traversal fails at the first item whose step fails. -/
theorem mapM_eq_error_iff {f : α → Outcome β} {items : List α} {e : Error} :
    items.mapM f = .error e ↔ ∃ before failing after, items = before ++ failing :: after ∧
      (∀ item ∈ before, ∃ b, f item = .ok b) ∧ f failing = .error e := by
  rw [mapM_eq_error_iff_firstError?, firstError?_eq_some_iff]
  constructor
  · rintro ⟨before, after, hitems, hbefore⟩
    obtain ⟨first, others, rfl, rfl, hothers⟩ := List.map_eq_append_iff.mp hitems
    obtain ⟨failing, rest, rfl, hfailing, -⟩ := List.map_eq_cons_iff.mp hothers
    refine ⟨first, failing, rest, rfl, fun item hitem => ?_, hfailing⟩
    exact hbefore (f item) (List.mem_map_of_mem hitem)
  · rintro ⟨before, failing, after, rfl, hbefore, hfailing⟩
    refine ⟨before.map f, after.map f, ?_, List.forall_mem_map.mpr hbefore⟩
    rw [List.map_append, List.map_cons, hfailing]

/-- A traversal fails with the error of one of its steps. -/
theorem exists_of_mapM_eq_error {f : α → Outcome β} {items : List α} {e : Error}
    (hfails : items.mapM f = .error e) : ∃ item ∈ items, f item = .error e := by
  obtain ⟨before, failing, after, rfl, -, hfailing⟩ := mapM_eq_error_iff.mp hfails
  exact ⟨failing, List.mem_append_right before List.mem_cons_self, hfailing⟩

theorem exists_mapM_ok {f : α → Outcome β} {items : List α}
    (hsteps : ∀ item ∈ items, ∃ result, f item = .ok result) :
    ∃ results, items.mapM f = .ok results := by
  induction items with
  | nil => exact ⟨[], rfl⟩
  | cons item rest ih =>
      obtain ⟨⟨result, hresult⟩, hrest⟩ := List.forall_mem_cons.mp hsteps
      obtain ⟨results, hresults⟩ := ih hrest
      exact ⟨result :: results, by rw [List.mapM_cons, hresult, hresults]; rfl⟩

/-- A traversal that keeps some of its results fails with the first error of its
steps. -/
theorem filterMapM_eq_error_iff {f : α → Outcome (Option β)} {items : List α} {e : Error} :
    items.filterMapM f = .error e ↔ firstError? (items.map f) = some e := by
  induction items with
  | nil => simp [pure, Except.pure]
  | cons item rest ih =>
      rw [List.filterMapM_cons, List.map_cons]
      cases f item with
      | error e' => simp [bind, Except.bind]
      | ok kept =>
          rw [firstError?_ok_cons, ← ih]
          cases kept with
          | none => rfl
          | some b =>
              cases rest.filterMapM f <;> simp [bind, Except.bind, pure, Except.pure]

/-- A traversal that keeps some of its results succeeds if every step does. -/
theorem exists_filterMapM_iff {f : α → Outcome (Option β)} {items : List α} :
    (∃ results, items.filterMapM f = .ok results) ↔ ∀ item ∈ items, ∃ kept, f item = .ok kept := by
  have hsteps : firstError? (items.map f) = none ↔ ∀ item ∈ items, ∃ kept, f item = .ok kept := by
    rw [firstError?_eq_none_iff, List.forall_mem_map]
  rw [← hsteps]
  cases htraversal : items.filterMapM f with
  | error e => simp [filterMapM_eq_error_iff.mp htraversal]
  | ok results =>
      simp only [Except.ok.injEq, exists_eq', true_iff]
      rw [Option.eq_none_iff_forall_ne_some]
      intro e hfirst
      rw [filterMapM_eq_error_iff.mpr hfirst] at htraversal
      cases htraversal

/-- Such a traversal fails at the first item whose step fails. -/
theorem filterMapM_eq_error_iff_exists {f : α → Outcome (Option β)} {items : List α} {e : Error} :
    items.filterMapM f = .error e ↔ ∃ before failing after, items = before ++ failing :: after ∧
      (∀ item ∈ before, ∃ kept, f item = .ok kept) ∧ f failing = .error e := by
  rw [filterMapM_eq_error_iff, ← mapM_eq_error_iff_firstError?, mapM_eq_error_iff]

/-- A step that succeeds adds what it keeps to the results of the others. -/
theorem filterMapM_cons_of_ok {f : α → Outcome (Option β)} {item : α} {kept : Option β}
    (hitem : f item = .ok kept) (rest : List α) :
    (item :: rest).filterMapM f = (rest.filterMapM f).map (kept.toList ++ ·) := by
  rw [List.filterMapM_cons, hitem]
  change (match kept with | none => rest.filterMapM f | some b => _) = _
  cases kept with
  | none => cases rest.filterMapM f <;> rfl
  | some b => cases rest.filterMapM f <;> rfl

theorem filterMapM_append {f : α → Outcome (Option β)} (first second : List α) :
    (first ++ second).filterMapM f = do
      let before ← first.filterMapM f
      let after ← second.filterMapM f
      return before ++ after := by
  induction first with
  | nil => simp
  | cons item rest ih =>
      rw [List.cons_append, List.filterMapM_cons, List.filterMapM_cons, bind_assoc]
      congr 1
      funext kept
      cases kept with
      | none => exact ih
      | some b => simp [ih]

/-- Of two actions the second goes on with the result and the state of the first. -/
theorem run_bind_of_run {σ : Type} {action : StateM σ α} {state after : σ} {a : α}
    (hrun : action.run state = (a, after)) (next : α → StateM σ β) :
    (action >>= next).run state = (next a).run after := by
  rw [StateT.run_bind, hrun]
  rfl

/-- A traversal with effects on a state runs its steps one after the other. -/
theorem mapM_run_cons {σ : Type} (f : α → StateM σ β) (item : α) (rest : List α) (state : σ) :
    ((item :: rest).mapM f).run state =
      (((f item).run state).1 :: ((rest.mapM f).run ((f item).run state).2).1,
        ((rest.mapM f).run ((f item).run state).2).2) := by
  rw [List.mapM_cons]
  rfl

end Tabular
