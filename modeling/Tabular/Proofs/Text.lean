import Mathlib.Data.List.Basic

/-! # Parts of texts

What stands in the parts of a text, or in a text that is put together of parts.
-/

namespace Tabular.Text

variable {isCut : Char → Bool}

/-- The parts of a text hold none of the cuts and nothing that is not in the text. -/
theorem mem_of_mem_splitOnP {text part : List Char} (hpart : part ∈ text.splitOnP isCut) {c : Char}
    (hc : c ∈ part) : c ∈ text ∧ isCut c = false := by
  induction text generalizing part with
  | nil =>
      rw [List.splitOnP_nil, List.mem_singleton] at hpart
      simp [hpart] at hc
  | cons first rest ih =>
      have hrest : ∀ other ∈ rest.splitOnP isCut, c ∈ other → c ∈ first :: rest ∧ isCut c = false :=
        fun other hother hmem => (ih hother hmem).imp_left (List.mem_cons_of_mem first)
      rw [List.splitOnP_cons_eq_if_modifyHead] at hpart
      split at hpart
      next hcut =>
        rcases List.mem_cons.mp hpart with rfl | hpart
        · simp at hc
        · exact hrest part hpart hc
      next huncut =>
        obtain ⟨head, others, hsplit⟩ := List.exists_cons_of_ne_nil (List.splitOnP_ne_nil isCut rest)
        rw [hsplit] at hpart hrest
        obtain ⟨hhead, hothers⟩ := List.forall_mem_cons.mp hrest
        rcases List.mem_cons.mp hpart with rfl | hpart
        · rcases List.mem_cons.mp hc with rfl | hc
          · exact ⟨List.mem_cons_self, by simpa using huncut⟩
          · exact hhead hc
        · exact hothers part hpart hc

theorem mem_intercalate {separator : List Char} {parts : List (List Char)} {c : Char}
    (hc : c ∈ separator.intercalate parts) : c ∈ separator ∨ ∃ part ∈ parts, c ∈ part := by
  induction parts with
  | nil => simp at hc
  | cons part rest ih =>
      cases rest with
      | nil =>
          rw [List.intercalate_singleton] at hc
          exact .inr ⟨part, List.mem_cons_self, hc⟩
      | cons next rest =>
          rw [List.intercalate_cons_cons, List.mem_append, List.mem_append] at hc
          rcases hc with (hpart | hseparator) | hrest
          · exact .inr ⟨part, List.mem_cons_self, hpart⟩
          · exact .inl hseparator
          · refine (ih hrest).imp_right fun ⟨other, hother, hmem⟩ => ?_
            exact ⟨other, List.mem_cons_of_mem _ hother, hmem⟩

end Tabular.Text
