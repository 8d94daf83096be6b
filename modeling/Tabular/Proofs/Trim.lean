import Mathlib.Data.List.Basic
import Tabular.Text.Character

/-! # White space around a text

Trimming takes white space off both ends of a text, up to the first character on either
side that is none. What is left is determined by this alone.
-/

namespace Tabular.Text

variable {before body after rest text : List Char}

/-- All characters are white space. -/
def AllBlank (text : List Char) : Prop :=
  ∀ c ∈ text, isBlank c = true

instance (text : List Char) : Decidable (AllBlank text) :=
  decidable_of_iff (text.all isBlank = true) List.all_eq_true

/-- The second text is what is left of the first without the white space around it. -/
inductive Trims : List Char → List Char → Prop
  | intro {before body after : List Char} (hbefore : AllBlank before) (hafter : AllBlank after)
    (hhead : ∀ c ∈ body.head?, isBlank c = false) (hlast : ∀ c ∈ body.getLast?, isBlank c = false) :
    Trims (before ++ body ++ after) body

theorem trimStart_append (hbefore : AllBlank before) (hrest : ∀ c ∈ rest.head?, isBlank c = false) :
    trimStart (before ++ rest) = rest := by
  rw [trimStart, List.dropWhile_append_of_pos hbefore]
  cases rest with
  | nil => rfl
  | cons c rest => exact List.dropWhile_cons_of_neg (by simp [hrest c rfl])

theorem trimEnd_append (hafter : AllBlank after) (hbody : ∀ c ∈ body.getLast?, isBlank c = false) :
    trimEnd (body ++ after) = body := by
  have hreverse : AllBlank after.reverse := fun c hc => hafter c (List.mem_reverse.mp hc)
  have hhead : ∀ c ∈ body.reverse.head?, isBlank c = false := by rwa [List.head?_reverse]
  have hstart := trimStart_append hreverse hhead
  rw [trimStart] at hstart
  rw [trimEnd, List.reverse_append, hstart, List.reverse_reverse]

/-- A text is the white space that trimming its start takes off and what is left. -/
theorem exists_trimStart (text : List Char) :
    ∃ before, AllBlank before ∧ text = before ++ trimStart text ∧
      ∀ c ∈ (trimStart text).head?, isBlank c = false := by
  refine ⟨text.takeWhile isBlank, List.all_eq_true.mp List.all_takeWhile,
    List.takeWhile_append_dropWhile.symm, fun c hc => ?_⟩
  have hnot := List.head?_dropWhile_not isBlank text
  rw [trimStart] at hc
  rw [Option.mem_def.mp hc] at hnot
  exact hnot

theorem exists_trimEnd (text : List Char) :
    ∃ after, AllBlank after ∧ text = trimEnd text ++ after ∧
      ∀ c ∈ (trimEnd text).getLast?, isBlank c = false := by
  obtain ⟨before, hbefore, htext, hhead⟩ := exists_trimStart text.reverse
  rw [trimStart] at htext hhead
  refine ⟨before.reverse, fun c hc => hbefore c (List.mem_reverse.mp hc), ?_, ?_⟩
  · rw [trimEnd, ← List.reverse_append, ← htext, List.reverse_reverse]
  · rwa [trimEnd, List.getLast?_reverse]

/-- What is left neither starts nor ends with white space. -/
theorem Trims.ends (htrims : Trims text body) :
    (∀ c ∈ body.head?, isBlank c = false) ∧ ∀ c ∈ body.getLast?, isBlank c = false := by
  cases htrims with
  | intro hbefore hafter hhead hlast => exact ⟨hhead, hlast⟩

theorem Trims.trim_eq (htrims : Trims text body) : trim text = body := by
  cases htrims with
  | @intro before body after hbefore hafter hhead hlast =>
      rw [trim, List.append_assoc]
      cases body with
      | nil =>
          -- Nothing but white space: all of it is taken off at the start.
          have hall : AllBlank (before ++ after) := List.forall_mem_append.mpr ⟨hbefore, hafter⟩
          have hnone : trimStart (before ++ after ++ []) = [] := trimStart_append hall nofun
          rw [List.append_nil] at hnone
          rw [List.nil_append, hnone]
          rfl
      | cons c body =>
          have hstart : trimStart (before ++ (c :: body ++ after)) = c :: body ++ after :=
            trimStart_append hbefore hhead
          rw [hstart, trimEnd_append hafter hlast]

theorem trims_trim (text : List Char) : Trims text (trim text) := by
  obtain ⟨before, hbefore, htext, hhead⟩ := exists_trimStart text
  obtain ⟨after, hafter, hstart, hlast⟩ := exists_trimEnd (trimStart text)
  have hbody : ∀ c ∈ (trim text).head?, isBlank c = false := by
    intro c hc
    apply hhead c
    rw [hstart, List.head?_append]
    exact Option.mem_def.mpr (by rw [← trim, Option.mem_def.mp hc]; rfl)
  have htrims : Trims (before ++ trim text ++ after) (trim text) :=
    .intro hbefore hafter hbody hlast
  rwa [List.append_assoc, trim, ← hstart, ← htext] at htrims

/-- A text is what it is trimmed to with white space on both sides. -/
theorem exists_trim (text : List Char) :
    ∃ before after, AllBlank before ∧ AllBlank after ∧ text = before ++ trim text ++ after := by
  obtain ⟨before, hbefore, htext, -⟩ := exists_trimStart text
  obtain ⟨after, hafter, hstart, -⟩ := exists_trimEnd (trimStart text)
  refine ⟨before, after, hbefore, hafter, ?_⟩
  rw [List.append_assoc, trim, ← hstart, ← htext]

/-- A text that does not start with white space starts with what it is trimmed to. -/
theorem exists_trim_of_head? (hhead : ∀ c ∈ text.head?, isBlank c = false) :
    ∃ after, AllBlank after ∧ text = trim text ++ after := by
  have hstart : trimStart ([] ++ text) = text := trimStart_append nofun hhead
  obtain ⟨after, hafter, htext, -⟩ := exists_trimEnd text
  refine ⟨after, hafter, ?_⟩
  rw [List.nil_append] at hstart
  rw [trim, hstart, ← htext]

/-- What a text is trimmed to is what is left of it without the white space around it. -/
theorem trim_eq_iff : trim text = body ↔ Trims text body := by
  constructor
  · rintro rfl
    exact trims_trim text
  · exact Trims.trim_eq

theorem exists_trims_iff {p : List Char → Prop} :
    (∃ body, Trims text body ∧ p body) ↔ p (trim text) := by
  constructor
  · rintro ⟨body, htrims, hbody⟩
    rwa [htrims.trim_eq]
  · intro htrim
    exact ⟨_, trims_trim text, htrim⟩

/-- Nothing is left of white space, and of nothing else. -/
theorem trim_eq_nil_iff : trim text = [] ↔ AllBlank text := by
  constructor
  · intro hnone
    have htrims := trims_trim text
    rw [hnone] at htrims
    generalize hempty : ([] : List Char) = body at htrims
    cases htrims with
    | intro hbefore hafter =>
        rw [← hempty, List.append_nil]
        exact List.forall_mem_append.mpr ⟨hbefore, hafter⟩
  · intro hblank
    have htrims : Trims (text ++ [] ++ []) [] := .intro hblank nofun nofun nofun
    rw [List.append_nil, List.append_nil] at htrims
    exact htrims.trim_eq

end Tabular.Text
