import Tabular.Proofs.Piece

/-! # Pieces next to each other

A text is its pieces one behind the other, and two texts put together have the pieces of both if
no piece goes on over the seam between them. An operator and a number do not go on into each
other.
-/

namespace Tabular.Lexeme

variable {first second text numeral : List Char} {n : Int}

/-! ## Pieces of a text -/

theorem prepend_append {pieces : List (List Char)} (hsome : pieces ≠ []) (c : Char)
    (others : List (List Char)) : prepend c (pieces ++ others) = prepend c pieces ++ others := by
  obtain ⟨piece, pieces, rfl⟩ := List.exists_cons_of_ne_nil hsome
  by_cases hjoins : joins c piece = true <;> simp [prepend, hjoins]

theorem pieces_ne_nil (hsome : first ≠ []) : pieces first ≠ [] := by
  obtain ⟨c, rest, rfl⟩ := List.exists_cons_of_ne_nil hsome
  rw [pieces_cons]
  unfold prepend
  split
  · simp
  · split <;> simp

/-- Two texts are cut apart from each other if the last character of the first does not belong
to the first piece of the second. -/
theorem pieces_append
    (hseam : ∀ c ∈ first.getLast?, ∀ piece ∈ (pieces second).head?, joins c piece = false) :
    pieces (first ++ second) = pieces first ++ pieces second := by
  induction first with
  | nil => rfl
  | cons c rest ih =>
      rw [List.cons_append, pieces_cons, pieces_cons]
      cases rest with
      | nil =>
          cases hsecond : pieces second with
          | nil =>
              rw [List.nil_append, hsecond]
              rfl
          | cons piece others =>
              have hjoins : joins c piece = false := hseam c rfl piece (by rw [hsecond]; rfl)
              rw [List.nil_append, hsecond, prepend, hjoins]
              rfl
      | cons d rest =>
          rw [ih hseam, prepend_append (pieces_ne_nil (List.cons_ne_nil d rest))]

theorem flatten_prepend (c : Char) (pieces : List (List Char)) :
    (prepend c pieces).flatten = c :: pieces.flatten := by
  unfold prepend
  split
  · rfl
  · split <;> rfl

/-- Nothing of a text is lost when it is cut. -/
theorem flatten_pieces (text : List Char) : (pieces text).flatten = text := by
  induction text with
  | nil => rfl
  | cons c rest ih => rw [pieces_cons, flatten_prepend, ih]

/-! ## Seams -/

/-- A sign does not go on with a character of words. -/
theorem joins_symbol {c : Char} (hc : isWordChar c = true) (operator : Operator) :
    joins c operator.symbol.toList = false := by
  have hsigns : operator.symbol.toList.all (fun d => !isWordChar d) = true := by
    cases operator <;> rfl
  cases hsymbol : operator.symbol.toList with
  | nil => rfl
  | cons d rest =>
      have hd : isWordChar d = false := by
        simpa using List.all_eq_true.mp hsigns d (hsymbol ▸ List.mem_cons_self)
      simp [joins, hd, hc]

/-- Neither a digit nor the minus sign of a number goes on a sign. -/
theorem joins_numeral {c : Char} (hc : isWordChar c = false) (hminus : c ≠ '-')
    (hnumeral : Text.Numeral numeral n) : joins c numeral = false := by
  cases hnumeral with
  | plain hsome hdigits =>
      obtain ⟨d, rest, rfl⟩ := List.exists_cons_of_ne_nil hsome
      have hd : d.isDigit = true := hdigits d List.mem_cons_self
      simp [joins, isWordChar_of_isDigit hd, hc, hminus]
  | @negative digits hsome hdigits =>
      obtain ⟨d, rest, rfl⟩ := List.exists_cons_of_ne_nil hsome
      have hd : d.isDigit = true := hdigits d List.mem_cons_self
      have hsign : isWordChar '-' = false := by decide
      simp [joins, startsNegative, hd, hsign]

theorem joins_symbol_numeral (operator : Operator) (hnumeral : Text.Numeral numeral n) {c : Char}
    (hc : c ∈ operator.symbol.toList.getLast?) : joins c numeral = false := by
  cases operator <;>
    · cases hc
      exact joins_numeral (by decide) (by decide) hnumeral

theorem pieces_symbol_numeral (operator : Operator) (hnumeral : Text.Numeral numeral n) :
    pieces (operator.symbol.toList ++ numeral) = [operator.symbol.toList, numeral] := by
  rw [pieces_append, pieces_symbol, pieces_numeral hnumeral, List.singleton_append]
  intro c hc piece hpiece
  rw [pieces_numeral hnumeral] at hpiece
  cases hpiece
  exact joins_symbol_numeral operator hnumeral hc

end Tabular.Lexeme
