import Tabular.Proofs.Printing
import Tabular.Proofs.Separator

/-! # Conditions with and without spaces

A lexeme ends where its token ends or where the next lexeme begins inside of the token. So
white space around the operator of a condition makes no difference as long as all tokens are
unquoted. A quoted literal makes the token quoted as a whole. Without white space before the
literal the operator is part of the text then, and so is a field that is next to the operator.
-/

namespace Tabular

namespace Token

variable {token : Token} {tokens : List Token} {word blanks rest : List Char}

/-- White space is one kind of separator. -/
theorem follow_blanks (hblanks : ∀ c ∈ blanks, Text.isBlank c = true) (hsome : blanks ≠ [])
    (hread : read .empty rest = .ok tokens) : Follow tokens (blanks ++ rest) := by
  apply follow_gap _ hsome hread
  intro c hc
  simp [isSeparator, hblanks c hc]

/-- A text opens with this token, and a plain word right before the text is the beginning of
the token. The other tokens of the text are these. -/
def Opens (token : Token) (tokens : List Token) (text : List Char) : Prop :=
  ∀ word, read ⟨word, false, none⟩ text =
    .ok (⟨String.ofList (word.reverse ++ token.text.toList), token.quoted⟩ :: tokens)

theorem Opens.read (hopens : Opens token tokens rest) :
    Token.read .empty rest = .ok (token :: tokens) := by
  rw [Pending.empty, hopens, List.reverse_nil, List.nil_append, String.ofList_toList]

theorem Follow.opens_plain (hfollow : Follow tokens rest) (hsome : word ≠ [])
    (hplain : ∀ c ∈ word, isPlain c = true) :
    Opens ⟨String.ofList word, false⟩ tokens (word ++ rest) := by
  intro before
  rw [Token.read_plain hplain, hfollow, Pending.tokens]
  simp [hsome]

theorem Follow.opens_quoteWord (hfollow : Follow tokens rest) (text : String) :
    Opens ⟨text, true⟩ tokens (quoteWord text ++ rest) := by
  intro before
  rw [Token.read_quoteWord, hfollow, Pending.tokens]
  simp

/-- A plain word right before a token belongs to it. -/
theorem Opens.glue (hopens : Opens token tokens rest) (hplain : ∀ c ∈ word, isPlain c = true) :
    Opens ⟨String.ofList (word ++ token.text.toList), token.quoted⟩ tokens (word ++ rest) := by
  intro before
  rw [read_plain hplain, hopens]
  simp

end Token

namespace Lexeme

variable {lexemes : List Lexeme} {tokens : List Token} {word piece blanks rest : List Char}

theorem ofTokens_cons_unquoted {token : Token} (hquoted : token.quoted = false) :
    ofTokens (token :: tokens) = (pieces token.text.toList).map ofPiece ++ ofTokens tokens := by
  rw [ofTokens_cons, ofToken_unquoted hquoted]

/-- The text begins with this piece, in an unquoted token, and has these lexemes. -/
def Leads (piece : List Char) (lexemes : List Lexeme) (text : List Char) : Prop :=
  ∃ token tokens, Token.Opens token tokens text ∧ token.quoted = false ∧
    (∃ others, pieces token.text.toList = piece :: others) ∧ ofTokens (token :: tokens) = lexemes

/-- A word of one piece that ends before the rest of a text. -/
theorem leads_of_follow (hplain : ∀ c ∈ word, Token.isPlain c = true) (hpieces : pieces word = [word])
    (hfollow : Token.Follow tokens rest) :
    Leads word (ofPiece word :: ofTokens tokens) (word ++ rest) := by
  have hsome : word ≠ [] := by
    rintro rfl
    cases hpieces
  refine ⟨_, _, hfollow.opens_plain hsome hplain, rfl, ⟨[], ?_⟩, ?_⟩
  · rw [String.toList_ofList, hpieces]
  · rw [ofTokens_cons_unquoted rfl, String.toList_ofList, hpieces]
    rfl

/-- A word of one piece before a text of which it is no part, with or without white space. -/
theorem Leads.cons (hleads : Leads piece lexemes rest) (hplain : ∀ c ∈ word, Token.isPlain c = true)
    (hpieces : pieces word = [word]) (hseam : ∀ c ∈ word.getLast?, joins c piece = false)
    (hblanks : ∀ c ∈ blanks, Text.isBlank c = true) :
    Leads word (ofPiece word :: lexemes) (word ++ (blanks ++ rest)) := by
  obtain ⟨token, tokens, hopens, hquoted, ⟨others, hfirst⟩, rfl⟩ := hleads
  by_cases hgap : blanks = []
  · subst hgap
    have hcut : pieces (word ++ token.text.toList) = word :: piece :: others := by
      rw [pieces_append, hpieces, hfirst]
      · rfl
      · simpa [hfirst] using hseam
    have hglued : Token.quoted ⟨String.ofList (word ++ token.text.toList), token.quoted⟩ = false :=
      hquoted
    refine ⟨_, tokens, hopens.glue hplain, hglued, ⟨piece :: others, ?_⟩, ?_⟩
    · rw [String.toList_ofList, hcut]
    · rw [ofTokens_cons_unquoted hglued, ofTokens_cons_unquoted hquoted, String.toList_ofList, hcut,
        hfirst]
      rfl
  · exact leads_of_follow hplain hpieces (Token.follow_blanks hblanks hgap hopens.read)

end Lexeme

namespace Condition

/-- The condition that a text states by itself. -/
def ofText (text : String) : Except ParseError Condition := do
  let tokens ← Token.ofText text
  ofTokens tokens

/-- The condition as a text, with what is given before and behind the operator. -/
def spaced (condition : Condition) (left right : List Char) : List Char :=
  condition.field.toList ++ (left ++ (condition.operator.symbol.toList ++
    (right ++ condition.value.written)))

variable {condition : Condition} {left right text : List Char} {lexemes : List Lexeme}

theorem ofText_of_read {token : Token} {tokens : List Token}
    (hread : Token.read .empty text = .ok (token :: tokens)) :
    ofText (String.ofList text) = ofLexemes (Lexeme.ofTokens (token :: tokens)) := by
  rw [ofText, Token.ofText, String.toList_ofList, hread]
  rfl

theorem ofText_of_leads {piece : List Char} (hleads : Lexeme.Leads piece lexemes text) :
    ofText (String.ofList text) = ofLexemes lexemes := by
  obtain ⟨token, tokens, hopens, -, -, rfl⟩ := hleads
  exact ofText_of_read hopens.read

theorem isPlain_symbol (operator : Operator) :
    ∀ c ∈ operator.symbol.toList, Token.isPlain c = true := by
  cases operator <;> exact List.all_eq_true.mp rfl

/-- The operator and the literal are two lexemes if the literal is an integer or there is white
space between them. -/
theorem leads_operator (hapart : (∃ n, condition.value = .integer n) ∨ right ≠ [])
    (hright : ∀ c ∈ right, Text.isBlank c = true) :
    Lexeme.Leads condition.operator.symbol.toList
      (.symbol condition.operator.symbol :: Lexeme.ofToken condition.value.token)
      (condition.operator.symbol.toList ++ (right ++ condition.value.written)) := by
  have hplain := isPlain_symbol condition.operator
  have hpieces := Lexeme.pieces_symbol condition.operator
  rw [← Lexeme.ofPiece_symbol]
  rcases hapart with ⟨n, hvalue⟩ | hgap
  · have hnumeral := Text.numeral_ofInt n.toInt
    have hdigits : Lexeme.Leads (Text.ofInt n.toInt).toList
        [.number (Text.ofInt n.toInt)] (Text.ofInt n.toInt).toList := by
      have hleads := Lexeme.leads_of_follow (fun c hc => Lexeme.isPlain_of_mem_ofInt hc)
        (Lexeme.pieces_numeral hnumeral) Token.follow_end
      rw [List.append_nil, Lexeme.ofPiece_numeral hnumeral, String.ofList_toList] at hleads
      exact hleads
    rw [hvalue, Value.token, Lexeme.ofToken_numeral hnumeral]
    apply hdigits.cons hplain hpieces _ hright
    intro c hc
    exact Lexeme.joins_symbol_numeral condition.operator hnumeral hc
  · have hread := condition.value.read_written Token.follow_end
    rw [List.append_nil] at hread
    have hfollow := Token.follow_blanks hright hgap hread
    have hleads := Lexeme.leads_of_follow hplain hpieces hfollow
    rw [Lexeme.ofTokens, List.flatMap_singleton] at hleads
    exact hleads

/-- White space around the operator of a condition makes no difference if the literal is an
integer, and neither does it before the operator if there is some behind it. But a quoted
literal right behind the operator makes the operator part of its text, so that the operator is
missing; the field is missing as well if it is next to the operator. A text without single
quotes is written between two of them. -/
theorem ofText_spaced (hfield : Lexeme.IsWord condition.field)
    (hleft : ∀ c ∈ left, Text.isBlank c = true) (hright : ∀ c ∈ right, Text.isBlank c = true) :
    ((∃ n, condition.value = .integer n) ∨ right ≠ [] →
      ofText (String.ofList (condition.spaced left right)) = .ok condition) ∧
    (∀ text, condition.value = .text text → right = [] →
      ofText (String.ofList (condition.spaced left right)) =
        .error (if left = [] then .missingField else .missingOperator)) ∧
    ∀ text : String, '\'' ∉ text.toList →
      (Value.text text).written = '\'' :: text.toList ++ ['\''] := by
  have hplain := hfield.isPlain
  have hpieces := Lexeme.pieces_of_isWordChar hfield.nonempty hfield.chars
  refine ⟨fun hapart => ?_, fun text htext hnone => ?_, fun text => Token.quoteWord_of_no_quote⟩
  · have hseam : ∀ c ∈ condition.field.toList.getLast?,
        Lexeme.joins c condition.operator.symbol.toList = false := fun c hc =>
      Lexeme.joins_symbol (hfield.chars c (List.mem_of_getLast? hc)) condition.operator
    have hleads := (leads_operator hapart hright).cons hplain hpieces hseam hleft
    rw [Lexeme.ofPiece_word hfield] at hleads
    rw [spaced, ofText_of_leads hleads, ofLexemes_lexemes]
  · have hliteral := (Token.follow_end.opens_quoteWord text).glue
      (isPlain_symbol condition.operator)
    rw [List.append_nil] at hliteral
    rw [spaced, hnone, htext, List.nil_append]
    by_cases hgap : left = []
    · rw [if_pos hgap, hgap, List.nil_append, Value.written,
        ofText_of_read (hliteral.glue hplain).read]
      rfl
    · have hfollow := Token.follow_blanks hleft hgap hliteral.read
      have hleads := Lexeme.leads_of_follow hplain hpieces hfollow
      rw [Lexeme.ofPiece_word hfield] at hleads
      rw [if_neg hgap, Value.written, ofText_of_leads hleads]
      rfl

theorem ofText_spaced_names :
    ofText (String.ofList (spaced ⟨"age", .less, .integer (-3)⟩ [] [])) =
        .ok ⟨"age", .less, .integer (-3)⟩ ∧
      ofText (String.ofList (spaced ⟨"name", .equal, .text "Bob"⟩ [] ['\t'])) =
        .ok ⟨"name", .equal, .text "Bob"⟩ ∧
      ofText (String.ofList (spaced ⟨"name", .equal, .text "Bob"⟩ [' '] [])) =
        .error .missingOperator := by
  have hage : Lexeme.IsWord "age" := Lexeme.isWord_of_all rfl rfl rfl
  have hname : Lexeme.IsWord "name" := Lexeme.isWord_of_all rfl rfl rfl
  have hnone : ∀ c ∈ ([] : List Char), Text.isBlank c = true := List.all_eq_true.mp rfl
  have htab : ∀ c ∈ ['\t'], Text.isBlank c = true := List.all_eq_true.mp rfl
  have hspace : ∀ c ∈ [' '], Text.isBlank c = true := List.all_eq_true.mp rfl
  refine ⟨?_, ?_, ?_⟩
  · exact (ofText_spaced hage hnone hnone).1 (.inl ⟨_, rfl⟩)
  · exact (ofText_spaced hname hnone htab).1 (.inr (List.cons_ne_nil _ _))
  · exact (ofText_spaced hname hspace hnone).2.1 "Bob" rfl rfl

/-- The same comparison with a quoted literal is read with white space behind the operator and
not without. -/
theorem ofText_unspaced_text :
    ofText "name = 'Bob'" = .ok ⟨"name", .equal, .text "Bob"⟩ ∧
      ofText "name='Bob'" = .error .missingField ∧
      ofText "name ='Bob'" = .error .missingOperator := by
  decide +kernel

end Condition

end Tabular
