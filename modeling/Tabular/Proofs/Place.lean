import Mathlib.Data.List.Basic
import Tabular.Text.Place

/-! # Cutting at places

A text that is put together of parts can be cut where one part ends and the next one starts. A
character is found behind the first part in which it does not stand, looking from either end.
-/

namespace Tabular.Text

variable {c : Char} {before part after text : List Char}

theorem byteLength_cons (c : Char) (rest : List Char) :
    byteLength (c :: rest) = c.utf8Size + byteLength rest := rfl

theorem byteLength_append (before after : List Char) :
    byteLength (before ++ after) = byteLength before + byteLength after := by
  induction before with
  | nil => exact (Nat.zero_add _).symm
  | cons c rest ih => rw [List.cons_append, byteLength_cons, byteLength_cons, ih, Nat.add_assoc]

theorem byteLength_pos (hsome : text ≠ []) : 0 < byteLength text := by
  obtain ⟨c, rest, rfl⟩ := List.exists_cons_of_ne_nil hsome
  exact Nat.add_pos_left c.utf8Size_pos _

theorem cutAt?_cons (place : Nat) (c : Char) (rest : List Char) :
    cutAt? (c.utf8Size + place) (c :: rest) =
      (cutAt? place rest).map fun (before, behind) => (c :: before, behind) := by
  obtain ⟨size, hsize⟩ := Nat.exists_eq_add_one.mpr c.utf8Size_pos
  have hplace : c.utf8Size + place = (size + place) + 1 := by omega
  rw [hplace, cutAt?, if_pos (by omega), ← hplace, Nat.add_sub_cancel_left]

/-- A text is cut where its first part ends. -/
theorem cutAt?_append (before after : List Char) :
    cutAt? (byteLength before) (before ++ after) = some (before, after) := by
  induction before with
  | nil => simp [byteLength, cutAt?]
  | cons c rest ih => rw [byteLength_cons, List.cons_append, cutAt?_cons, ih, Option.map_some]

theorem slice?_append (before part after : List Char) :
    slice? (byteLength before) (byteLength before + byteLength part) (before ++ part ++ after) =
      some part := by
  rw [← byteLength_append, slice?, cutAt?_append]
  simp [cutAt?_append]

theorem find?_eq_none (hnone : c ∉ text) : find? c text = none := by
  induction text with
  | nil => rfl
  | cons d rest ih =>
      obtain ⟨hd, hrest⟩ := List.ne_and_not_mem_of_not_mem_cons hnone
      rw [find?, if_neg (Ne.symm hd), ih hrest, Option.map_none]

theorem rfind?_eq_none (hnone : c ∉ text) : rfind? c text = none := by
  induction text with
  | nil => rfl
  | cons d rest ih =>
      obtain ⟨hd, hrest⟩ := List.ne_and_not_mem_of_not_mem_cons hnone
      simp [rfind?, ih hrest, Ne.symm hd]

/-- Before the first place of a character it does not stand. -/
theorem find?_append_cons (hbefore : c ∉ before) (after : List Char) :
    find? c (before ++ c :: after) = some (byteLength before) := by
  induction before with
  | nil => simp [find?, byteLength]
  | cons d rest ih =>
      obtain ⟨hd, hrest⟩ := List.ne_and_not_mem_of_not_mem_cons hbefore
      rw [List.cons_append, find?, if_neg (Ne.symm hd), ih hrest, Option.map_some, byteLength_cons]

/-- Behind the last place of a character it does not stand. -/
theorem rfind?_append_cons (before : List Char) (hafter : c ∉ after) :
    rfind? c (before ++ c :: after) = some (byteLength before) := by
  induction before with
  | nil => simp [rfind?, rfind?_eq_none hafter, byteLength]
  | cons d rest ih => simp [rfind?, ih, byteLength_cons]

theorem exists_of_find? {place : Nat} (hfind : find? c text = some place) :
    ∃ before after, text = before ++ c :: after ∧ c ∉ before ∧ place = byteLength before := by
  by_cases hmem : c ∈ text
  · obtain ⟨before, after, rfl, hbefore⟩ := List.eq_append_cons_of_mem hmem
    rw [find?_append_cons hbefore] at hfind
    exact ⟨before, after, rfl, hbefore, (Option.some.inj hfind).symm⟩
  · rw [find?_eq_none hmem] at hfind
    cases hfind

theorem exists_of_rfind? {place : Nat} (hfind : rfind? c text = some place) :
    ∃ before after, text = before ++ c :: after ∧ place = byteLength before := by
  induction text generalizing place with
  | nil => cases hfind
  | cons d rest ih =>
      rw [rfind?] at hfind
      split at hfind
      next found hrest =>
        obtain ⟨before, after, rfl, rfl⟩ := ih hrest
        exact ⟨d :: before, after, rfl, (Option.some.inj hfind).symm⟩
      next =>
        obtain ⟨rfl, rfl⟩ : d = c ∧ 0 = place := by simpa using hfind
        exact ⟨[], rest, rfl, rfl⟩

/-- A character of one byte stands at the end of a text if no place behind it is in the text. -/
theorem getLast?_of_rfind? (hsize : c.utf8Size = 1) {place : Nat}
    (hfind : rfind? c text = some place) (hend : place = byteLength text - 1) :
    text.getLast? = some c := by
  obtain ⟨before, after, rfl, rfl⟩ := exists_of_rfind? hfind
  rw [byteLength_append, byteLength_cons, hsize] at hend
  have hafter : after = [] := by
    by_contra hsome
    have hpos := byteLength_pos hsome
    omega
  rw [hafter, List.getLast?_concat]

end Tabular.Text
