import Tabular.Condition.Reader
import Tabular.Proofs.Decimal
import Tabular.Proofs.Token

/-! # Pieces of a text

A text falls into words, numbers and signs, each as long as possible. This is said from the end
of the text: a character belongs to the piece that follows it, or it is a piece of its own. A
text that is a word, an operator or a number from one end to the other is a single piece.
Conversely every piece that is a word has the characters of words only.
-/

namespace Tabular.Lexeme

theorem isWordChar_of_isDigit {c : Char} (hc : c.isDigit = true) : isWordChar c = true := by
  have hascii : c.toNat < 0x80 := by
    simp only [Char.isDigit, Bool.and_eq_true, decide_eq_true_eq, ge_iff_le, UInt32.le_iff_toNat_le]
      at hc
    have hnine : c.toNat ≤ 57 := hc.2
    omega
  simp [isWordChar, Text.isAlphanumeric, hascii, Char.isAlphanum, hc]

/-- No white space is a character of words: the two tables have no code point in common. -/
theorem isWordChar_eq_false_of_isBlank {c : Char} (hc : Text.isBlank c = true) :
    isWordChar c = false := by
  have htable : ∀ range ∈ Text.blankRanges, ∀ k, k < range.2 - range.1 + 1 →
      isWordChar (Char.ofNat (range.1 + k)) = false := by
    decide +kernel
  obtain ⟨range, hrange, hin⟩ := List.any_eq_true.mp hc
  simp only [Text.Range.has, Bool.and_eq_true, decide_eq_true_eq] at hin
  have hword := htable range hrange (c.toNat - range.1) (by omega)
  rw [Nat.add_sub_cancel' hin.1, Char.ofNat_toNat] at hword
  exact hword

theorem isPlain_of_isWordChar {c : Char} (hc : isWordChar c = true) : Token.isPlain c = true := by
  have hne : ∀ other, isWordChar other = false → c ≠ other := by
    rintro other hother rfl
    rw [hc] at hother
    cases hother
  have hblank : Text.isBlank c = false := by
    by_contra hblank
    rw [isWordChar_eq_false_of_isBlank (by simpa using hblank)] at hc
    cases hc
  simp [Token.isPlain, Token.isQuote, Token.isSeparator, delimiter, hblank, hne '\'' (by decide),
    hne '"' (by decide), hne ';' (by decide), hne ',' (by decide)]

/-- The character belongs to the piece that follows it. Words and numbers go on
with characters of words; signs go on with characters of neither kind that do
not start a negative number. -/
def joins (c : Char) (piece : List Char) : Bool :=
  match piece with
  | [] => false
  | d :: _ =>
    if isWordChar d then isWordChar c || (c == '-' && d.isDigit)
    else !isWordChar c && !startsNegative piece

def prepend (c : Char) : List (List Char) → List (List Char)
  | [] => [[c]]
  | piece :: rest => if joins c piece then (c :: piece) :: rest else [c] :: piece :: rest

/-- The longest words, numbers and signs of a text, put together from its end. -/
def pieces (text : List Char) : List (List Char) :=
  text.foldr prepend []

/-- The kind of a piece is seen from its start. -/
def ofPiece (piece : List Char) : Lexeme :=
  let text := String.ofList piece
  match piece with
  | [] => .symbol text
  | c :: _ =>
    if startsNegative piece || c.isDigit then .number text
    else if isWordChar c then .word text
    else .symbol text

variable {text : List Char}

theorem pieces_cons (c : Char) (rest : List Char) : pieces (c :: rest) = prepend c (pieces rest) :=
  rfl

theorem pieces_of_isWordChar (hnonempty : text ≠ []) (hchars : ∀ c ∈ text, isWordChar c = true) :
    pieces text = [text] := by
  induction text with
  | nil => exact absurd rfl hnonempty
  | cons c rest ih =>
      obtain ⟨hc, hrest⟩ := List.forall_mem_cons.mp hchars
      cases rest with
      | nil => rfl
      | cons d rest =>
          have hd : isWordChar d = true := hrest d List.mem_cons_self
          have hjoins : joins c (d :: rest) = true := by simp [joins, hd, hc]
          rw [pieces_cons, ih (by simp) hrest, prepend, if_pos hjoins]

/-- A minus sign belongs to the digit that follows it, and so to all that this goes on with. -/
theorem pieces_negative {digit : Char} {more : List Char} (hdigit : digit.isDigit = true)
    (hmore : ∀ c ∈ more, isWordChar c = true) :
    pieces ('-' :: digit :: more) = ['-' :: digit :: more] := by
  have hword : ∀ c ∈ digit :: more, isWordChar c = true :=
    List.forall_mem_cons.mpr ⟨isWordChar_of_isDigit hdigit, hmore⟩
  have hjoins : joins '-' (digit :: more) = true := by
    simp [joins, isWordChar_of_isDigit hdigit, hdigit]
  rw [pieces_cons, pieces_of_isWordChar (List.cons_ne_nil digit more) hword, prepend,
    if_pos hjoins]

theorem toList_text_ofPiece (piece : List Char) : (ofPiece piece).text.toList = piece := by
  unfold ofPiece
  split
  · rfl
  · split
    · exact String.toList_ofList
    · split <;> exact String.toList_ofList

theorem ofPiece_ne_quoted (piece : List Char) (text : String) : ofPiece piece ≠ .quoted text := by
  intro hquoted
  unfold ofPiece at hquoted
  dsimp only at hquoted
  split at hquoted
  · cases hquoted
  · split at hquoted
    · cases hquoted
    · split at hquoted <;> cases hquoted

/-- A text that is read as a word: it has characters of words and starts with no ASCII
digit. -/
structure IsWord (text : String) : Prop where
  nonempty : text.toList ≠ []
  chars : ∀ c ∈ text.toList, isWordChar c = true
  start : ∀ c ∈ text.toList.head?, c.isDigit = false

theorem IsWord.isPlain {text : String} (hword : IsWord text) :
    ∀ c ∈ text.toList, Token.isPlain c = true :=
  fun c hc => isPlain_of_isWordChar (hword.chars c hc)

theorem isWord_of_all {text : String} {first : Char} (hfirst : text.toList.head? = some first)
    (hdigit : first.isDigit = false) (hchars : text.toList.all isWordChar = true) : IsWord text where
  nonempty := by
    intro hnone
    rw [hnone] at hfirst
    cases hfirst
  chars := List.all_eq_true.mp hchars
  start c hc := by
    rw [hfirst] at hc
    cases hc
    exact hdigit

theorem ofPiece_word {text : String} (hword : IsWord text) : ofPiece text.toList = .word text := by
  obtain ⟨c, rest, htext⟩ := List.exists_cons_of_ne_nil hword.nonempty
  have hc : isWordChar c = true := hword.chars c (htext ▸ List.mem_cons_self)
  have hdigit : c.isDigit = false := hword.start c (by rw [htext]; rfl)
  have hnegative : startsNegative (c :: rest) = false := by
    unfold startsNegative
    split
    next hminus =>
      cases hminus
      cases hc
    next => rfl
  have hback : String.ofList (c :: rest) = text := by rw [← htext, String.ofList_toList]
  rw [htext, ofPiece]
  simp [hnegative, hdigit, hc, hback]

theorem pieces_symbol (operator : Operator) :
    pieces operator.symbol.toList = [operator.symbol.toList] := by
  cases operator <;> decide

theorem ofPiece_symbol (operator : Operator) :
    ofPiece operator.symbol.toList = .symbol operator.symbol := by
  cases operator <;> decide

theorem pieces_numeral {n : Int} (hnumeral : Text.Numeral text n) : pieces text = [text] := by
  cases hnumeral with
  | plain hsome hdigits =>
      exact pieces_of_isWordChar hsome fun c hc => isWordChar_of_isDigit (hdigits c hc)
  | negative hsome hdigits =>
      obtain ⟨d, rest, rfl⟩ := List.exists_cons_of_ne_nil hsome
      obtain ⟨hd, hrest⟩ := List.forall_mem_cons.mp hdigits
      exact pieces_negative hd fun c hc => isWordChar_of_isDigit (hrest c hc)

theorem ofPiece_numeral {n : Int} (hnumeral : Text.Numeral text n) :
    ofPiece text = .number (String.ofList text) := by
  cases hnumeral with
  | plain hsome hdigits =>
      obtain ⟨d, rest, rfl⟩ := List.exists_cons_of_ne_nil hsome
      have hd : d.isDigit = true := hdigits d List.mem_cons_self
      simp [ofPiece, hd]
  | @negative digits hsome hdigits =>
      obtain ⟨d, rest, rfl⟩ := List.exists_cons_of_ne_nil hsome
      have hd : d.isDigit = true := hdigits d List.mem_cons_self
      simp [ofPiece, startsNegative, hd]

theorem isPlain_of_mem_ofInt {n : Int} {c : Char} (hc : c ∈ (Text.ofInt n).toList) :
    Token.isPlain c = true := by
  rcases Text.mem_ofInt hc with rfl | hdigit
  · rfl
  · exact isPlain_of_isWordChar (isWordChar_of_isDigit hdigit)

/-- A piece that starts with a character of words has no others. -/
theorem isWordChar_of_mem_pieces {piece : List Char} (hpiece : piece ∈ pieces text)
    (hstart : ∀ c ∈ piece.head?, isWordChar c = true) : ∀ c ∈ piece, isWordChar c = true := by
  induction text generalizing piece with
  | nil => cases hpiece
  | cons c rest ih =>
      rw [pieces_cons] at hpiece
      cases hrest : pieces rest with
      | nil =>
          rw [hrest] at hpiece
          rw [List.mem_singleton.mp hpiece] at hstart ⊢
          simpa using hstart
      | cons first others =>
          rw [hrest] at ih hpiece
          rw [prepend] at hpiece
          split at hpiece
          next hjoins =>
            rcases List.mem_cons.mp hpiece with rfl | hpiece
            · have hc : isWordChar c = true := hstart c rfl
              -- The character joins a piece of its own kind.
              have hfirst : ∀ d ∈ first.head?, isWordChar d = true := by
                cases first with
                | nil => simp
                | cons d first =>
                    by_contra hd
                    simp [joins, hc] at hjoins
                    simp [hjoins] at hd
              exact List.forall_mem_cons.mpr ⟨hc, ih List.mem_cons_self hfirst⟩
            · exact ih (List.mem_cons_of_mem _ hpiece) hstart
          next =>
            rcases List.mem_cons.mp hpiece with rfl | hpiece
            · simpa using hstart
            · exact ih hpiece hstart

theorem isWord_of_ofPiece {piece : List Char} (hpiece : piece ∈ pieces text) {word : String}
    (hword : ofPiece piece = .word word) : IsWord word := by
  cases piece with
  | nil => cases hword
  | cons c rest =>
      rw [ofPiece] at hword
      split at hword
      · cases hword
      next hnumber =>
        split at hword
        next hc =>
          cases hword
          have hchars := isWordChar_of_mem_pieces hpiece (by simpa using hc)
          rw [Bool.or_eq_true, not_or] at hnumber
          refine ⟨by simp, ?_, ?_⟩
          · rwa [String.toList_ofList]
          · rw [String.toList_ofList]
            simpa using hnumber.2
        next => cases hword

end Tabular.Lexeme
