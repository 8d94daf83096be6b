import Tabular.Proofs.Lexeme
import Tabular.Proofs.Outcome

/-! # Tokens that are a comparison

A condition is read of three lexemes and of nothing else: a word, an operator and a value. Where
one of them ends and the next begins is seen from their characters, so that unquoted tokens may
hold several of them. A quoted token holds one. Therefore the tokens that a condition is read of
can be listed, and no others are accepted.
-/

namespace Tabular

theorem Operator.ofSymbol?_eq_some_iff {sign : String} {operator : Operator} :
    ofSymbol? sign = some operator ↔ sign = operator.symbol := by
  constructor
  · intro hread
    unfold ofSymbol? at hread
    split at hread <;> cases hread <;> rfl
  · rintro rfl
    exact ofSymbol?_symbol operator

/-- The lexeme states the value: a quoted text as it is, and a number by its digits. -/
inductive Lexeme.Denotes : Lexeme → Value → Prop
  | quoted (text : String) : Denotes (.quoted text) (.text text)
  | number {digits : String} {n : Int64} (hread : Text.integer? digits.toList = some n) :
      Denotes (.number digits) (.integer n)

/-! ## Three lexemes -/

namespace Condition

variable {lexemes rest : List Lexeme} {condition : Condition}

theorem readField_eq_ok {field : String} :
    readField lexemes = .ok (field, rest) ↔ lexemes = .word field :: rest := by
  constructor
  · intro hread
    unfold readField at hread
    split at hread
    · cases hread
      rfl
    · cases hread
  · rintro rfl
    rfl

theorem readOperator_eq_ok {operator : Operator} :
    readOperator lexemes = .ok (operator, rest) ↔ lexemes = .symbol operator.symbol :: rest := by
  constructor
  · intro hread
    unfold readOperator at hread
    split at hread
    · split at hread
      next hsign =>
        cases hread
        rw [Operator.ofSymbol?_eq_some_iff.mp hsign]
      next => cases hread
    · split at hread <;> cases hread
    · cases hread
  · rintro rfl
    simp only [readOperator, Operator.ofSymbol?_symbol]

theorem readValue_eq_ok {value : Value} :
    readValue lexemes = .ok (value, rest) ↔
      ∃ lexeme, lexemes = lexeme :: rest ∧ lexeme.Denotes value := by
  constructor
  · intro hread
    unfold readValue at hread
    split at hread
    · cases hread
      exact ⟨_, rfl, .quoted _⟩
    · split at hread
      next hdigits =>
        cases hread
        exact ⟨_, rfl, .number hdigits⟩
      next => cases hread
    · cases hread
    · cases hread
  · rintro ⟨lexeme, rfl, hdenotes⟩
    cases hdenotes with
    | quoted => rfl
    | number hdigits => simp only [readValue, hdigits]

theorem readEnd_eq_ok {done : Unit} : readEnd lexemes = .ok done ↔ lexemes = [] := by
  cases lexemes with
  | nil => exact ⟨fun _ => rfl, fun _ => rfl⟩
  | cons extra rest =>
      simp only [readEnd, reduceCtorEq, iff_false]
      split <;> exact nofun

/-- A condition is read of its field, its operator and a lexeme for its value. -/
theorem ofLexemes_eq_ok :
    ofLexemes lexemes = .ok condition ↔
      ∃ lexeme, lexemes = [.word condition.field, .symbol condition.operator.symbol, lexeme] ∧
        lexeme.Denotes condition.value := by
  constructor
  · intro hread
    obtain ⟨⟨field, afterField⟩, hfield, hread⟩ := Outcome.bind_eq_ok.mp hread
    obtain ⟨⟨operator, afterOperator⟩, hoperator, hread⟩ := Outcome.bind_eq_ok.mp hread
    obtain ⟨⟨value, afterValue⟩, hvalue, hread⟩ := Outcome.bind_eq_ok.mp hread
    obtain ⟨done, hend, hread⟩ := Outcome.bind_eq_ok.mp hread
    cases hread
    obtain ⟨lexeme, hlexeme, hdenotes⟩ := readValue_eq_ok.mp hvalue
    refine ⟨lexeme, ?_, hdenotes⟩
    rw [readField_eq_ok.mp hfield, readOperator_eq_ok.mp hoperator, hlexeme, readEnd_eq_ok.mp hend]
  · rintro ⟨lexeme, rfl, hdenotes⟩
    refine Outcome.bind_eq_ok.mpr ⟨_, readField_eq_ok.mpr rfl, ?_⟩
    refine Outcome.bind_eq_ok.mpr ⟨_, readOperator_eq_ok.mpr rfl, ?_⟩
    refine Outcome.bind_eq_ok.mpr ⟨_, readValue_eq_ok.mpr ⟨lexeme, rfl, hdenotes⟩, ?_⟩
    exact Outcome.bind_eq_ok.mpr ⟨(), readEnd_eq_ok.mpr rfl, rfl⟩

theorem ofTokens_eq_ofLexemes {tokens : List Token} :
    ofTokens tokens = .ok condition ↔ ofLexemes (Lexeme.ofTokens tokens) = .ok condition := by
  cases tokens with
  | nil => exact ⟨nofun, nofun⟩
  | cons token tokens => exact Iff.rfl

end Condition

/-! ## The tokens of three lexemes -/

namespace Lexeme

variable {tokens : List Token} {token : Token} {lexemes : List Lexeme} {first second third : Lexeme}

theorem ofTokens_eq_nil (hempty : ⟨"", false⟩ ∉ tokens) (hnone : ofTokens tokens = []) :
    tokens = [] := by
  cases tokens with
  | nil => rfl
  | cons token tokens =>
      rw [ofTokens_cons, List.append_eq_nil_iff, ofToken_eq_nil_iff] at hnone
      exact absurd (hnone.1 ▸ List.mem_cons_self) hempty

/-- The first lexeme is in the first token, and the next ones may be as well. -/
theorem ofTokens_eq_cons (hempty : ⟨"", false⟩ ∉ tokens) (htokens : ofTokens tokens = first :: lexemes) :
    ∃ token rest others, tokens = token :: rest ∧ ⟨"", false⟩ ∉ rest ∧
      ofToken token = first :: others ∧ others ++ ofTokens rest = lexemes := by
  cases tokens with
  | nil => cases htokens
  | cons token rest =>
      obtain ⟨htoken, hrest⟩ := not_or.mp (mt List.mem_cons.mpr hempty)
      rw [ofTokens_cons, List.append_eq_cons_iff] at htokens
      rcases htokens with ⟨hnone, -⟩ | ⟨others, hothers, hbehind⟩
      · exact absurd (ofToken_eq_nil_iff.mp hnone).symm htoken
      · exact ⟨token, rest, others, rfl, hrest, hothers, hbehind.symm⟩

theorem ofTokens_eq_singleton (hempty : ⟨"", false⟩ ∉ tokens) (htokens : ofTokens tokens = [first]) :
    ∃ token, tokens = [token] ∧ ofToken token = [first] := by
  obtain ⟨token, rest, others, rfl, hrest, htoken, hbehind⟩ := ofTokens_eq_cons hempty htokens
  obtain ⟨rfl, hnone⟩ := List.append_eq_nil_iff.mp hbehind
  rw [ofTokens_eq_nil hrest hnone]
  exact ⟨token, rfl, htoken⟩

theorem ofTokens_eq_pair (hempty : ⟨"", false⟩ ∉ tokens)
    (htokens : ofTokens tokens = [first, second]) :
    (∃ one two, tokens = [one, two] ∧ ofToken one = [first] ∧ ofToken two = [second]) ∨
      ∃ one, tokens = [one] ∧ ofToken one = [first, second] := by
  obtain ⟨one, rest, others, rfl, hrest, hone, hbehind⟩ := ofTokens_eq_cons hempty htokens
  rcases List.append_eq_singleton_iff.mp hbehind with ⟨rfl, hnext⟩ | ⟨rfl, hnone⟩
  · obtain ⟨two, rfl, htwo⟩ := ofTokens_eq_singleton hrest hnext
    exact .inl ⟨one, two, rfl, hone, htwo⟩
  · rw [ofTokens_eq_nil hrest hnone]
    exact .inr ⟨one, rfl, hone⟩

/-- Three lexemes are in three tokens, in two or in one. -/
theorem ofTokens_eq_triple (hempty : ⟨"", false⟩ ∉ tokens)
    (htokens : ofTokens tokens = [first, second, third]) :
    (∃ one two three, tokens = [one, two, three] ∧ ofToken one = [first] ∧
        ofToken two = [second] ∧ ofToken three = [third]) ∨
      (∃ one two, tokens = [one, two] ∧ ofToken one = [first, second] ∧ ofToken two = [third]) ∨
      (∃ one two, tokens = [one, two] ∧ ofToken one = [first] ∧ ofToken two = [second, third]) ∨
      ∃ one, tokens = [one] ∧ ofToken one = [first, second, third] := by
  obtain ⟨one, rest, others, rfl, hrest, hone, hbehind⟩ := ofTokens_eq_cons hempty htokens
  rcases List.append_eq_cons_iff.mp hbehind with ⟨rfl, hnext⟩ | ⟨last, rfl, hlast⟩
  · rcases ofTokens_eq_pair hrest hnext with ⟨two, three, rfl, htwo, hthree⟩ | ⟨two, rfl, htwo⟩
    · exact .inl ⟨one, two, three, rfl, hone, htwo, hthree⟩
    · exact .inr (.inr (.inl ⟨one, two, rfl, hone, htwo⟩))
  · rcases List.append_eq_singleton_iff.mp hlast.symm with ⟨rfl, hnext⟩ | ⟨rfl, hnone⟩
    · obtain ⟨two, rfl, htwo⟩ := ofTokens_eq_singleton hrest hnext
      exact .inr (.inl ⟨one, two, rfl, hone, htwo⟩)
    · rw [ofTokens_eq_nil hrest hnone]
      exact .inr (.inr (.inr ⟨one, rfl, hone⟩))

/-- A token without quoted lexemes is not quoted, and is what they are put together. -/
theorem eq_of_ofToken (htoken : ofToken token = lexemes) (hplain : ∀ text, .quoted text ∉ lexemes) :
    token = ⟨String.ofList (lexemes.flatMap fun lexeme => lexeme.text.toList), false⟩ := by
  cases hquoted : token.quoted with
  | true =>
      rw [ofToken, if_pos hquoted] at htoken
      exact absurd (htoken ▸ List.mem_singleton_self _) (hplain token.text)
  | false => rw [← htoken, ← toList_text_of_ofToken hquoted, String.ofList_toList, ← hquoted]

/-- No number starts with a plus sign: it is an operator sign. -/
theorem head?_ne_plus_of_mem_ofTokens {digits : String} (hmem : .number digits ∈ ofTokens tokens) :
    digits.toList.head? ≠ some '+' := by
  intro hplus
  obtain ⟨token, -, htoken⟩ := List.mem_flatMap.mp hmem
  rw [ofToken, scan_eq] at htoken
  split at htoken
  · cases List.mem_singleton.mp htoken
  · obtain ⟨piece, -, hpiece⟩ := List.mem_map.mp htoken
    have htext := toList_text_ofPiece piece
    rw [hpiece] at htext
    obtain ⟨rest, hrest⟩ := List.head?_eq_some_iff.mp hplus
    have hsign : isWordChar '+' = false := by decide
    rw [← htext, text, hrest, ofPiece] at hpiece
    simp [startsNegative, hsign] at hpiece

end Lexeme

/-! ## Conditions -/

namespace Condition

/-- The tokens spell the condition: unquoted, its field, its operator and its integer, each a
token of its own or together with its neighbours, or a quoted text behind the other two. -/
inductive Spelled : List Token → Condition → Prop
  | apart {field digits : String} (operator : Operator) {n : Int64} (hfield : Lexeme.IsWord field)
      (hdigits : Text.Numeral digits.toList n.toInt) :
      Spelled [⟨field, false⟩, ⟨operator.symbol, false⟩, ⟨digits, false⟩]
        ⟨field, operator, .integer n⟩
  | fieldGlued {field digits : String} (operator : Operator) {n : Int64}
      (hfield : Lexeme.IsWord field) (hdigits : Text.Numeral digits.toList n.toInt) :
      Spelled [⟨field ++ operator.symbol, false⟩, ⟨digits, false⟩] ⟨field, operator, .integer n⟩
  | valueGlued {field digits : String} (operator : Operator) {n : Int64}
      (hfield : Lexeme.IsWord field) (hdigits : Text.Numeral digits.toList n.toInt) :
      Spelled [⟨field, false⟩, ⟨operator.symbol ++ digits, false⟩] ⟨field, operator, .integer n⟩
  | glued {field digits : String} (operator : Operator) {n : Int64} (hfield : Lexeme.IsWord field)
      (hdigits : Text.Numeral digits.toList n.toInt) :
      Spelled [⟨field ++ operator.symbol ++ digits, false⟩] ⟨field, operator, .integer n⟩
  | quoted {field : String} (operator : Operator) (text : String) (hfield : Lexeme.IsWord field) :
      Spelled [⟨field, false⟩, ⟨operator.symbol, false⟩, ⟨text, true⟩]
        ⟨field, operator, .text text⟩
  | fieldGluedQuoted {field : String} (operator : Operator) (text : String)
      (hfield : Lexeme.IsWord field) :
      Spelled [⟨field ++ operator.symbol, false⟩, ⟨text, true⟩] ⟨field, operator, .text text⟩

variable {tokens : List Token} {condition : Condition}

theorem Spelled.exists_lexemes (hspelled : Spelled tokens condition) :
    ∃ lexeme, Lexeme.ofTokens tokens =
        [.word condition.field, .symbol condition.operator.symbol, lexeme] ∧
      lexeme.Denotes condition.value := by
  cases hspelled with
  | apart operator hfield hdigits =>
      refine ⟨_, ?_, .number (Text.numeral_iff.mp hdigits).1⟩
      simp only [Lexeme.ofTokens_cons, Lexeme.ofToken_word hfield, Lexeme.ofToken_symbol,
        Lexeme.ofToken_numeral hdigits]
      rfl
  | fieldGlued operator hfield hdigits =>
      refine ⟨_, ?_, .number (Text.numeral_iff.mp hdigits).1⟩
      simp only [Lexeme.ofTokens_cons, Lexeme.ofToken_field_symbol hfield,
        Lexeme.ofToken_numeral hdigits]
      rfl
  | valueGlued operator hfield hdigits =>
      refine ⟨_, ?_, .number (Text.numeral_iff.mp hdigits).1⟩
      simp only [Lexeme.ofTokens_cons, Lexeme.ofToken_word hfield,
        Lexeme.ofToken_symbol_numeral operator hdigits]
      rfl
  | glued operator hfield hdigits =>
      refine ⟨_, ?_, .number (Text.numeral_iff.mp hdigits).1⟩
      simp only [Lexeme.ofTokens_cons, Lexeme.ofToken_field_symbol_numeral hfield operator hdigits]
      rfl
  | quoted operator text hfield =>
      refine ⟨_, ?_, .quoted text⟩
      simp only [Lexeme.ofTokens_cons, Lexeme.ofToken_word hfield, Lexeme.ofToken_symbol]
      rfl
  | fieldGluedQuoted operator text hfield =>
      refine ⟨_, ?_, .quoted text⟩
      simp only [Lexeme.ofTokens_cons, Lexeme.ofToken_field_symbol hfield]
      rfl

theorem spelled_of_lexemes (hempty : ⟨"", false⟩ ∉ tokens) {lexeme : Lexeme}
    (htokens : Lexeme.ofTokens tokens =
      [.word condition.field, .symbol condition.operator.symbol, lexeme])
    (hdenotes : lexeme.Denotes condition.value) : Spelled tokens condition := by
  obtain ⟨field, operator, value⟩ := condition
  have hfield : Lexeme.IsWord field :=
    Lexeme.isWord_of_mem_ofTokens (htokens ▸ List.mem_cons_self)
  have hshapes := Lexeme.ofTokens_eq_triple hempty htokens
  cases hdenotes with
  | @number digits n hread =>
      have hmem : .number digits ∈ Lexeme.ofTokens tokens := by simp [htokens]
      have hdigits := Text.numeral_iff.mpr ⟨hread, Lexeme.head?_ne_plus_of_mem_ofTokens hmem⟩
      rcases hshapes with ⟨one, two, three, rfl, hone, htwo, hthree⟩ | ⟨one, two, rfl, hone, htwo⟩ |
        ⟨one, two, rfl, hone, htwo⟩ | ⟨one, rfl, hone⟩
      · rw [Lexeme.eq_of_ofToken hone (by simp), Lexeme.eq_of_ofToken htwo (by simp),
          Lexeme.eq_of_ofToken hthree (by simp)]
        simpa [Lexeme.text] using Spelled.apart operator hfield hdigits
      · rw [Lexeme.eq_of_ofToken hone (by simp), Lexeme.eq_of_ofToken htwo (by simp)]
        simpa [Lexeme.text] using Spelled.fieldGlued operator hfield hdigits
      · rw [Lexeme.eq_of_ofToken hone (by simp), Lexeme.eq_of_ofToken htwo (by simp)]
        simpa [Lexeme.text] using Spelled.valueGlued operator hfield hdigits
      · rw [Lexeme.eq_of_ofToken hone (by simp)]
        simpa [Lexeme.text, String.append_assoc] using Spelled.glued operator hfield hdigits
  | quoted text =>
      have hlast : ∀ {token lexemes}, Lexeme.ofToken token = lexemes → .quoted text ∈ lexemes →
          token = ⟨text, true⟩ := fun htoken hmem =>
        Lexeme.eq_of_quoted_mem_ofToken (htoken ▸ hmem)
      rcases hshapes with ⟨one, two, three, rfl, hone, htwo, hthree⟩ | ⟨one, two, rfl, hone, htwo⟩ |
        ⟨one, two, rfl, hone, htwo⟩ | ⟨one, rfl, hone⟩
      · rw [Lexeme.eq_of_ofToken hone (by simp), Lexeme.eq_of_ofToken htwo (by simp),
          hlast hthree (by simp)]
        simpa [Lexeme.text] using Spelled.quoted operator text hfield
      · rw [Lexeme.eq_of_ofToken hone (by simp), hlast htwo (by simp)]
        simpa [Lexeme.text] using Spelled.fieldGluedQuoted operator text hfield
      -- A quoted token has no lexemes besides its text.
      · rw [hlast htwo (by simp)] at htwo
        cases htwo
      · rw [hlast hone (by simp)] at hone
        cases hone

/-- A condition is read of tokens exactly if they spell it. Empty tokens do not count. -/
theorem ofTokens_accepts (tokens : List Token) (condition : Condition) :
    ofTokens tokens = .ok condition ↔
      Spelled (tokens.filter fun token => token ≠ ⟨"", false⟩) condition := by
  have hempty : ⟨"", false⟩ ∉ tokens.filter fun token => token ≠ ⟨"", false⟩ := by simp
  rw [ofTokens_eq_ofLexemes, ← Lexeme.ofTokens_filter, ofLexemes_eq_ok]
  constructor
  · rintro ⟨lexeme, hlexemes, hdenotes⟩
    exact spelled_of_lexemes hempty hlexemes hdenotes
  · exact Spelled.exists_lexemes

/-- A second condition, a word, a plus sign, a number out of range and a quoted field. -/
example :
    ofTokens [⟨"id=1", false⟩, ⟨"or", false⟩] = .error (.reservedOperator "OR") ∧
      ofTokens [⟨"id=x", false⟩] = .error (.invalidValue "x") ∧
      ofTokens [⟨"id=+1", false⟩] = .error (.invalidOperator "=+") ∧
      ofTokens [⟨"id", false⟩, ⟨"=9223372036854775808", false⟩] =
        .error (.invalidValue "9223372036854775808") ∧
      ofTokens [⟨"id", true⟩, ⟨"=1", false⟩] = .error .missingField := by
  decide +kernel

end Condition

end Tabular
