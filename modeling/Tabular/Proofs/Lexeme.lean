import Tabular.Proofs.Turn

/-! # Lexemes of tokens

Scanning an unquoted token yields its pieces, each as the lexeme of its kind. So a token that is a
word, an operator or a number from one end to the other is a single lexeme, and a token that is
put together of these has one lexeme for each. An unquoted token is its lexemes one behind the
other.
-/

namespace Tabular.Lexeme

variable {text : List Char} {token : Token} {tokens : List Token} {field digits : String} {n : Int}

/-- Scanning a text from left to right comes to the same as putting its pieces together from its
end. -/
theorem scan_eq (text : List Char) : scan text = (pieces text).map ofPiece := by
  induction text using scan.induct with
  | case1 =>
      rw [scan]
      rfl
  | case2 c rest ih =>
      have hturn := takeFirst_turn c rest
      rw [scan, ih, hturn.pieces_eq, List.map_cons, hturn.fits.pieces_eq.2]

theorem ofToken_eq_scan (hquoted : token.quoted = false) :
    ofToken token = scan token.text.toList := by
  simp [ofToken, hquoted]

theorem ofTokens_cons (token : Token) (tokens : List Token) :
    ofTokens (token :: tokens) = ofToken token ++ ofTokens tokens :=
  List.flatMap_cons

theorem ofToken_unquoted (hquoted : token.quoted = false) :
    ofToken token = (pieces token.text.toList).map ofPiece := by
  rw [ofToken_eq_scan hquoted, scan_eq]

theorem ofToken_word {text : String} (hword : IsWord text) : ofToken ⟨text, false⟩ = [.word text] := by
  rw [ofToken_unquoted rfl, pieces_of_isWordChar hword.nonempty hword.chars, List.map_singleton,
    ofPiece_word hword]

theorem ofToken_symbol (operator : Operator) :
    ofToken ⟨operator.symbol, false⟩ = [.symbol operator.symbol] := by
  rw [ofToken_unquoted rfl, pieces_symbol, List.map_singleton, ofPiece_symbol]

theorem ofToken_numeral {numeral : String} {n : Int} (hnumeral : Text.Numeral numeral.toList n) :
    ofToken ⟨numeral, false⟩ = [.number numeral] := by
  rw [ofToken_unquoted rfl, pieces_numeral hnumeral, List.map_singleton, ofPiece_numeral hnumeral,
    String.ofList_toList]

/-- What is read as a word is one. -/
theorem isWord_of_mem_ofTokens {tokens : List Token} {word : String}
    (hword : .word word ∈ ofTokens tokens) : IsWord word := by
  obtain ⟨token, -, htoken⟩ := List.mem_flatMap.mp hword
  rw [ofToken, scan_eq] at htoken
  split at htoken
  · cases List.mem_singleton.mp htoken
  · obtain ⟨piece, hpiece, hlexeme⟩ := List.mem_map.mp htoken
    exact isWord_of_ofPiece hpiece hlexeme

/-- An unquoted token is its lexemes put together. -/
theorem toList_text_of_ofToken (hquoted : token.quoted = false) :
    token.text.toList = (ofToken token).flatMap fun lexeme => lexeme.text.toList := by
  rw [ofToken_unquoted hquoted, List.flatMap_map]
  simp only [toList_text_ofPiece, List.flatMap_id', flatten_pieces]

/-- Only a quoted token has a quoted lexeme, and no others. -/
theorem eq_of_quoted_mem_ofToken {text : String} (hmem : .quoted text ∈ ofToken token) :
    token = ⟨text, true⟩ := by
  cases hquoted : token.quoted with
  | true =>
      rw [ofToken, if_pos hquoted, List.mem_singleton, quoted.injEq] at hmem
      rw [hmem, ← hquoted]
  | false =>
      rw [ofToken_unquoted hquoted] at hmem
      obtain ⟨piece, -, hpiece⟩ := List.mem_map.mp hmem
      exact absurd hpiece (ofPiece_ne_quoted piece text)

theorem ofToken_eq_nil_iff : ofToken token = [] ↔ token = ⟨"", false⟩ := by
  constructor
  · intro hnone
    cases hquoted : token.quoted with
    | true =>
        rw [ofToken, if_pos hquoted] at hnone
        cases hnone
    | false =>
        have htext := toList_text_of_ofToken hquoted
        rw [hnone, List.flatMap_nil, String.toList_eq_nil_iff] at htext
        rw [← htext, ← hquoted]
  · rintro rfl
    rw [ofToken_unquoted rfl]
    rfl

/-- Empty tokens have no lexemes. -/
theorem ofTokens_filter (tokens : List Token) :
    ofTokens (tokens.filter fun token => token ≠ ⟨"", false⟩) = ofTokens tokens := by
  induction tokens with
  | nil => rfl
  | cons token tokens ih =>
      rw [List.filter_cons, ofTokens_cons]
      split
      · rw [ofTokens_cons, ih]
      next hempty =>
        rw [ih, ofToken_eq_nil_iff.mpr (by simpa using hempty), List.nil_append]

theorem ofToken_append {first second : String}
    (hseam : ∀ c ∈ first.toList.getLast?, ∀ piece ∈ (pieces second.toList).head?,
      joins c piece = false) :
    ofToken ⟨first ++ second, false⟩ = ofToken ⟨first, false⟩ ++ ofToken ⟨second, false⟩ := by
  simp only [ofToken_unquoted, String.toList_append, pieces_append hseam, List.map_append]

theorem ofToken_field_append (hfield : IsWord field) {rest : String}
    {operator : Operator} {others : List (List Char)}
    (hrest : pieces rest.toList = operator.symbol.toList :: others) :
    ofToken ⟨field ++ rest, false⟩ = .word field :: ofToken ⟨rest, false⟩ := by
  rw [ofToken_append, ofToken_word hfield, List.singleton_append]
  intro c hc piece hpiece
  rw [hrest] at hpiece
  cases hpiece
  exact joins_symbol (hfield.chars c (List.mem_of_getLast? hc)) operator

theorem ofToken_symbol_numeral (operator : Operator) (hnumeral : Text.Numeral digits.toList n) :
    ofToken ⟨operator.symbol ++ digits, false⟩ = [.symbol operator.symbol, .number digits] := by
  have hpieces := pieces_symbol_numeral operator hnumeral
  rw [ofToken_unquoted rfl, String.toList_append, hpieces, List.map_cons, List.map_singleton,
    ofPiece_symbol, ofPiece_numeral hnumeral, String.ofList_toList]

theorem ofToken_field_symbol (hfield : IsWord field) (operator : Operator) :
    ofToken ⟨field ++ operator.symbol, false⟩ = [.word field, .symbol operator.symbol] := by
  rw [ofToken_field_append hfield (pieces_symbol operator), ofToken_symbol]

theorem ofToken_field_symbol_numeral (hfield : IsWord field) (operator : Operator)
    (hdigits : Text.Numeral digits.toList n) :
    ofToken ⟨field ++ operator.symbol ++ digits, false⟩ =
      [.word field, .symbol operator.symbol, .number digits] := by
  have hpieces := pieces_symbol_numeral operator hdigits
  rw [← String.toList_append] at hpieces
  rw [String.append_assoc, ofToken_field_append hfield hpieces,
    ofToken_symbol_numeral operator hdigits]

end Tabular.Lexeme
