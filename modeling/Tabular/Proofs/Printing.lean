import Tabular.Proofs.Comparison
import Tabular.Proofs.Script
import Tabular.Proofs.Skeleton

/-! # Selections that are read back

What is written for a selection is read as that selection, whatever its names and texts
are. Writing and reading meet at the tokens of the selection. Conversely every selection
that is read is one that can be written.
-/

namespace Tabular

/-- The field of a condition stands unquoted, so that it has to be a word. -/
structure Selection.WellFormed (selection : Selection) : Prop where
  fields : ∀ names, selection.fields = .named names → names ≠ [] ∧ names.Nodup
  condition : ∀ condition, selection.condition = some condition → Lexeme.IsWord condition.field

/-! ## Tokens -/

def Fields.tokens : Fields → List Token
  | .all => [⟨"*", false⟩]
  | .named names => names.map fun name => ⟨name, true⟩

def Value.token : Value → Token
  | .integer n => ⟨Text.ofInt n.toInt, false⟩
  | .text s => ⟨s, true⟩

def Condition.tokens (condition : Condition) : List Token :=
  [⟨condition.field, false⟩, ⟨condition.operator.symbol, false⟩, condition.value.token]

namespace Selection

def whereTokens : Option Condition → List Token
  | none => []
  | some condition => ⟨"WHERE", false⟩ :: condition.tokens

/-- The tokens behind the command. -/
def arguments (selection : Selection) : List Token :=
  selection.fields.tokens ++ ⟨"FROM", false⟩ :: ⟨selection.table, true⟩ ::
    whereTokens selection.condition

def tokens (selection : Selection) : List Token :=
  ⟨"SELECT", false⟩ :: selection.arguments

end Selection

section Reading

variable {tokens : List Token} {rest : List Char}

theorem Fields.read_names {names : List String} (hnonempty : names ≠ [])
    (hfollow : Token.Follow tokens rest) :
    Token.read .empty ([','].intercalate (names.map Token.quoteWord) ++ rest) =
      .ok (names.map (fun name => ⟨name, true⟩) ++ tokens) := by
  induction names with
  | nil => exact absurd rfl hnonempty
  | cons name names ih =>
      cases names with
      | nil =>
          rw [List.map_singleton, List.intercalate_singleton, hfollow.read_quoteWord]
          rfl
      | cons next names =>
          have hcomma := Token.follow_comma (ih (by simp))
          have hwritten : [','].intercalate ((name :: next :: names).map Token.quoteWord) ++ rest =
              Token.quoteWord name ++
                (',' :: ([','].intercalate ((next :: names).map Token.quoteWord) ++ rest)) := by
            simp only [List.map_cons, List.intercalate_cons_cons, List.append_assoc,
              List.cons_append, List.nil_append]
          rw [hwritten, hcomma.read_quoteWord]
          rfl

theorem Fields.read_written {fields : Fields} (hnames : ∀ names, fields = .named names → names ≠ [])
    (hfollow : Token.Follow tokens rest) :
    Token.read .empty (fields.written ++ rest) = .ok (fields.tokens ++ tokens) := by
  cases fields with
  | all => exact hfollow.read_plain (List.cons_ne_nil '*' []) (List.all_eq_true.mp rfl)
  | named names => exact read_names (hnames names rfl) hfollow

theorem Value.read_written (value : Value) (hfollow : Token.Follow tokens rest) :
    Token.read .empty (value.written ++ rest) = .ok (value.token :: tokens) := by
  cases value with
  | text s => exact hfollow.read_quoteWord s
  | integer n =>
      have hplain : ∀ c ∈ (Text.ofInt n.toInt).toList, Token.isPlain c = true :=
        fun c hc => Lexeme.isPlain_of_mem_ofInt hc
      rw [written, hfollow.read_plain (Text.toList_ofInt_ne_nil _) hplain, String.ofList_toList]
      rfl

theorem Condition.read_written {condition : Condition} (hfield : Lexeme.IsWord condition.field)
    (hfollow : Token.Follow tokens rest) :
    Token.read .empty (condition.written ++ rest) = .ok (condition.tokens ++ tokens) := by
  have hvalue := condition.value.read_written hfollow
  have hsymbol : Token.read .empty
      (condition.operator.symbol.toList ++ ' ' :: (condition.value.written ++ rest)) =
        .ok (⟨condition.operator.symbol, false⟩ :: condition.value.token :: tokens) := by
    cases condition.operator <;> exact Token.read_word rfl nofun hvalue
  have hplain : condition.field.toList.all Token.isPlain = true :=
    List.all_eq_true.mpr hfield.isPlain
  have hall := Token.read_word hplain hfield.nonempty hsymbol
  rw [written, List.append_assoc, List.append_assoc, List.cons_append, List.cons_append]
  exact hall

namespace Selection

theorem follow_writtenWhere {condition : Option Condition}
    (hfield : ∀ stated, condition = some stated → Lexeme.IsWord stated.field)
    (hfollow : Token.Follow tokens rest) :
    Token.Follow (whereTokens condition ++ tokens) (writtenWhere condition ++ rest) := by
  cases condition with
  | none => exact hfollow
  | some condition =>
      have hcondition := condition.read_written (hfield condition rfl) hfollow
      have hwhere := @Token.read_word _ _ "WHERE" rfl nofun hcondition
      have hkeyword : " WHERE ".toList = ' ' :: ("WHERE".toList ++ [' ']) := rfl
      rw [writtenWhere_some, hkeyword, whereTokens]
      simp only [List.cons_append, List.append_assoc, List.nil_append]
      exact Token.follow_space hwhere

/-- What is written for a selection has the tokens of the selection. -/
theorem read_written {selection : Selection} (hwell : selection.WellFormed)
    (hfollow : Token.Follow tokens rest) :
    Token.read .empty (selection.written ++ rest) = .ok (selection.tokens ++ tokens) := by
  have hwhere := follow_writtenWhere hwell.condition hfollow
  have htable := hwhere.read_quoteWord selection.table
  have hfrom := @Token.read_word _ _ "FROM" rfl nofun htable
  have hfields := Fields.read_written (fun names hnames => (hwell.fields names hnames).1)
    (Token.follow_space hfrom)
  have hselect := @Token.read_word _ _ "SELECT" rfl nofun hfields
  have hcommand : "SELECT ".toList = "SELECT".toList ++ [' '] := rfl
  have hkeyword : " FROM ".toList = ' ' :: ("FROM".toList ++ [' ']) := rfl
  rw [written_eq, hcommand, hkeyword]
  simp only [List.cons_append, List.append_assoc, List.nil_append]
  rw [hselect, Selection.tokens, arguments]
  simp only [List.cons_append, List.append_assoc]

end Selection

end Reading

/-! ## Statements from tokens -/

theorem Fields.ofTokens_tokens {fields : Fields}
    (hnames : ∀ names, fields = .named names → names ≠ [] ∧ names.Nodup) :
    Fields.ofTokens fields.tokens = .ok fields := by
  cases fields with
  | all => rfl
  | named names =>
      obtain ⟨hnonempty, hnodup⟩ := hnames names rfl
      have htexts : (names.map fun name => (⟨name, true⟩ : Token)).map Token.text = names := by
        simp [Function.comp_def]
      rw [tokens, Fields.ofTokens, htexts, distinct_of_nodup hnodup]
      simp [hnonempty, Token.isWildcard]

theorem Value.exists_lexeme (value : Value) :
    ∃ lexeme, Lexeme.ofToken value.token = [lexeme] ∧ lexeme.Denotes value := by
  cases value with
  | text s => exact ⟨_, rfl, .quoted s⟩
  | integer n =>
      exact ⟨_, Lexeme.ofToken_numeral (Text.numeral_ofInt n.toInt), .number (Text.integer?_ofInt n)⟩

/-- The lexemes of a condition make it up again. -/
theorem Condition.ofLexemes_lexemes (condition : Condition) :
    ofLexemes (.word condition.field :: .symbol condition.operator.symbol ::
      Lexeme.ofToken condition.value.token) = .ok condition := by
  obtain ⟨lexeme, hlexeme, hdenotes⟩ := condition.value.exists_lexeme
  rw [hlexeme]
  exact ofLexemes_eq_ok.mpr ⟨lexeme, rfl, hdenotes⟩

theorem Condition.ofTokens_tokens {condition : Condition} (hfield : Lexeme.IsWord condition.field) :
    Condition.ofTokens condition.tokens = .ok condition := by
  have hlexemes : Lexeme.ofTokens condition.tokens = .word condition.field ::
      .symbol condition.operator.symbol :: Lexeme.ofToken condition.value.token := by
    rw [tokens, Lexeme.ofTokens, List.flatMap_cons, List.flatMap_cons, List.flatMap_singleton,
      Lexeme.ofToken_word hfield, Lexeme.ofToken_symbol]
    rfl
  change ofLexemes (Lexeme.ofTokens condition.tokens) = _
  rw [hlexemes, ofLexemes_lexemes]

namespace Selection

variable {selection : Selection}

theorem states_whereTokens (hwell : selection.WellFormed) :
    States (whereTokens selection.condition) selection.condition := by
  cases hstated : selection.condition with
  | none => exact .nothing
  | some condition =>
      exact .condition (by decide) (Condition.ofTokens_tokens (hwell.condition condition hstated))

theorem skeleton_tokens (hwell : selection.WellFormed) : Skeleton selection.tokens selection := by
  have hfields : ∀ token ∈ selection.fields.tokens, token.isKeyword "from" = false := by
    cases selection.fields with
    | all => decide
    | named names => simp [Fields.tokens, Token.isKeyword]
  have hlisted := Fields.ofTokens_eq_ok.mp (Fields.ofTokens_tokens hwell.fields)
  exact .intro (by decide) hfields (by decide) rfl hlisted (states_whereTokens hwell)

/-- The last token of a selection is quoted or a number. -/
theorem tokens_ends (selection : Selection) :
    ∃ others last, selection.tokens = others ++ [last] ∧ last.isDelimiter = false := by
  cases hcondition : selection.condition with
  | none =>
      refine ⟨⟨"SELECT", false⟩ :: selection.fields.tokens ++ [⟨"FROM", false⟩],
        ⟨selection.table, true⟩, ?_, ?_⟩
      · simp [tokens, arguments, hcondition, whereTokens]
      · simp [Token.isDelimiter, Token.terminator]
  | some condition =>
      refine ⟨⟨"SELECT", false⟩ :: selection.fields.tokens ++ [⟨"FROM", false⟩,
        ⟨selection.table, true⟩, ⟨"WHERE", false⟩, ⟨condition.field, false⟩,
        ⟨condition.operator.symbol, false⟩], condition.value.token, ?_, ?_⟩
      · simp [tokens, arguments, hcondition, whereTokens, Condition.tokens]
      · cases condition.value with
        | text s => simp [Value.token, Token.isDelimiter, Token.terminator]
        | integer n =>
            simp only [Value.token, Token.isDelimiter, Token.terminator, beq_eq_false_iff_ne]
            intro hsame
            have htext : Text.ofInt n.toInt = String.singleton delimiter :=
              congrArg Token.text hsame
            have hmem : delimiter ∈ (Text.ofInt n.toInt).toList := by
              rw [htext]
              decide
            rcases Text.mem_ofInt hmem with hminus | hdigit
            · cases hminus
            · cases hdigit

end Selection

namespace Statement

variable {selection : Selection}

theorem ofTokens_select {tokens : List Token} (hwell : selection.WellFormed)
    (htokens : withoutTerminator tokens = selection.tokens) :
    ofTokens tokens = .ok (.select selection) :=
  (ofTokens_eq_select htokens).mpr (Selection.skeleton_tokens hwell)

theorem ofTokens_tokens (hwell : selection.WellFormed) :
    ofTokens selection.tokens = .ok (.select selection) := by
  apply ofTokens_select hwell
  obtain ⟨others, last, htokens, hlast⟩ := selection.tokens_ends
  rw [htokens, withoutTerminator, List.getLast?_concat, Option.any_some, hlast]
  rfl

theorem ofTokens_terminated (hwell : selection.WellFormed) :
    ofTokens (selection.tokens ++ [.terminator]) = .ok (.select selection) := by
  apply ofTokens_select hwell
  rw [withoutTerminator, List.getLast?_concat, List.dropLast_concat]
  rfl

theorem ofText_render (hwell : selection.WellFormed) :
    ofText selection.render = .ok (.select selection) := by
  have htokens := selection.read_written hwell Token.follow_end
  rw [List.append_nil, List.append_nil] at htokens
  rw [ofText, Token.ofText, Selection.render, String.toList_ofList, htokens]
  exact ofTokens_tokens hwell

theorem ofText_terminated (hwell : selection.WellFormed) :
    ofText (String.ofList (selection.render.toList ++ [delimiter])) = .ok (.select selection) := by
  have hend : Token.Follow [.terminator] [delimiter] := Token.follow_delimiter rfl
  rw [ofText, Token.ofText, Selection.render, String.toList_ofList, String.toList_ofList,
    selection.read_written hwell hend]
  exact ofTokens_terminated hwell

end Statement

/-! ## Scripts of one selection -/

def Fields.texts : Fields → List String
  | .all => []
  | .named names => names

def Value.texts : Value → List String
  | .integer _ => []
  | .text s => [s]

def Condition.texts (condition : Condition) : List String :=
  condition.field :: condition.value.texts

namespace Selection

/-- The names and texts of a selection. -/
def texts (selection : Selection) : List String :=
  selection.fields.texts ++ selection.table ::
    (selection.condition.elim [] Condition.texts)

end Selection

namespace Script

theorem uncut_quoteWord {text : String} (huncut : Uncut text.toList) :
    Uncut (Token.quoteWord text) := by
  intro c hc
  rcases Token.mem_of_mem_quoteWord hc with hmem | rfl | rfl
  · exact huncut c hmem
  · rfl
  · rfl

theorem uncut_fields {fields : Fields} (htexts : ∀ text ∈ fields.texts, Uncut text.toList) :
    Uncut fields.written := by
  cases fields with
  | all => exact uncut_cons rfl nofun
  | named names =>
      intro c hc
      rcases Text.mem_intercalate hc with hcomma | ⟨part, hpart, hmem⟩
      · rw [List.mem_singleton.mp hcomma]
        rfl
      · obtain ⟨name, hname, rfl⟩ := List.mem_map.mp hpart
        exact uncut_quoteWord (htexts name hname) c hmem

theorem uncut_value {value : Value} (htexts : ∀ text ∈ value.texts, Uncut text.toList) :
    Uncut value.written := by
  cases value with
  | text s => exact uncut_quoteWord (htexts s List.mem_cons_self)
  | integer n =>
      intro c hc
      rcases Text.mem_ofInt hc with rfl | hdigit
      · rfl
      · unfold isTerminator
        simp only [Bool.or_eq_false_iff, beq_eq_false_iff_ne]
        constructor
        · rintro rfl
          cases hdigit
        · rintro rfl
          cases hdigit

theorem uncut_condition {condition : Condition}
    (htexts : ∀ text ∈ condition.texts, Uncut text.toList) : Uncut condition.written := by
  obtain ⟨hfield, hvalue⟩ := List.forall_mem_cons.mp htexts
  have hsymbol : Uncut condition.operator.symbol.toList := by
    cases condition.operator <;> exact uncut_of_any rfl
  exact uncut_append (uncut_append hfield (uncut_cons rfl hsymbol))
    (uncut_cons rfl (uncut_value hvalue))

/-- What is written for a selection is one statement if its texts are. -/
theorem uncut_written {selection : Selection}
    (htexts : ∀ text ∈ selection.texts, Uncut text.toList) : Uncut selection.written := by
  obtain ⟨hfields, hothers⟩ := List.forall_mem_append.mp htexts
  obtain ⟨htable, hcondition⟩ := List.forall_mem_cons.mp hothers
  have hwhere : Uncut (Selection.writtenWhere selection.condition) := by
    cases hstated : selection.condition with
    | none => exact nofun
    | some condition =>
        rw [hstated] at hcondition
        exact uncut_append (uncut_of_any rfl) (uncut_condition hcondition)
  rw [Selection.written_eq]
  exact uncut_append (uncut_append (uncut_append (uncut_append (uncut_of_any rfl)
    (uncut_fields hfields)) (uncut_of_any rfl)) (uncut_quoteWord htable)) hwhere

theorem parse_render {selection : Selection} (hwell : selection.WellFormed)
    (htexts : ∀ text ∈ selection.texts, Uncut text.toList) :
    parse selection.render = .ok [.select selection] := by
  apply parse_eq_singleton
  · rw [Selection.render, String.toList_ofList]
    exact uncut_written htexts
  · refine ⟨'S', ?_, by decide⟩
    rw [Selection.render, String.toList_ofList, Selection.written_eq]
    exact List.mem_append_left _ (List.mem_append_left _ (List.mem_append_left _
      (List.mem_append_left _ List.mem_cons_self)))
  · exact Statement.ofText_terminated hwell

end Script

/-! ## Selections that are read -/

theorem Fields.wellFormed_of_ofTokens {tokens : List Token} {names : List String}
    (hread : Fields.ofTokens tokens = .ok (.named names)) : names ≠ [] ∧ names.Nodup := by
  rw [Fields.ofTokens] at hread
  split at hread
  · cases hread
  next hsome =>
    split at hread
    · split at hread <;> cases hread
    · cases hread
      obtain ⟨hnodup, hmem⟩ := nodup_distinct (tokens.map Token.text)
      refine ⟨?_, hnodup⟩
      obtain ⟨token, rest, rfl⟩ := List.exists_cons_of_ne_nil (by simpa using hsome)
      exact List.ne_nil_of_mem ((hmem token.text).mpr List.mem_cons_self)

theorem Condition.isWord_of_ofTokens {tokens : List Token} {condition : Condition}
    (hread : Condition.ofTokens tokens = .ok condition) : Lexeme.IsWord condition.field := by
  rw [ofTokens_eq_ofLexemes, ofLexemes_eq_ok] at hread
  obtain ⟨lexeme, hlexemes, -⟩ := hread
  exact Lexeme.isWord_of_mem_ofTokens (hlexemes ▸ List.mem_cons_self)

namespace Selection

theorem Skeleton.wellFormed {tokens : List Token} {selection : Selection}
    (hskeleton : Skeleton tokens selection) : selection.WellFormed := by
  cases hskeleton with
  | intro _ _ _ _ hlisted hstates =>
      refine ⟨?_, ?_⟩
      · rintro names rfl
        exact Fields.wellFormed_of_ofTokens (Fields.ofTokens_eq_ok.mpr hlisted)
      · rintro stated rfl
        cases hstates with
        | condition _ hread => exact Condition.isWord_of_ofTokens hread

/-- Every selection that is read is well formed. -/
theorem wellFormed_of_ofText {text : String} {selection : Selection}
    (hread : Statement.ofText text = .ok (.select selection)) : selection.WellFormed := by
  obtain ⟨tokens, -, hread⟩ := Outcome.bind_eq_ok.mp hread
  exact ((Statement.ofTokens_eq_select rfl).mp hread).wellFormed

/-- Well-formed selections are read back from what is written for them, with or without
a delimiter at the end, and as a script if none of their texts ends a statement. No
other selections are ever read. -/
theorem render_reads_back :
    (∀ selection : Selection, selection.WellFormed →
      Statement.ofText selection.render = .ok (.select selection) ∧
        Statement.ofText (selection.render ++ ";") = .ok (.select selection) ∧
        ((∀ text ∈ selection.texts, delimiter ∉ text.toList ∧ '\n' ∉ text.toList) →
          Script.parse selection.render = .ok [.select selection])) ∧
      ∀ (text : String) (selection : Selection),
        Statement.ofText text = .ok (.select selection) → selection.WellFormed := by
  refine ⟨fun selection hwell => ⟨Statement.ofText_render hwell, ?_, fun htexts => ?_⟩, ?_⟩
  · have hend : ";".toList = [delimiter] := rfl
    have hterminated : selection.render ++ ";" =
        String.ofList (selection.render.toList ++ [delimiter]) := by
      rw [← hend, ← String.toList_append, String.ofList_toList]
    rw [hterminated]
    exact Statement.ofText_terminated hwell
  · apply Script.parse_render hwell
    intro text htext
    exact Script.uncut_of_notMem (htexts text htext).1 (htexts text htext).2
  · intro text selection hread
    exact wellFormed_of_ofText hread

/-- Names that would be keywords, a wildcard, nothing or two words without quotes, and the
least integer. -/
def quotedSelection : Selection :=
  ⟨.named ["from", "*", "", "it's", "a, \"b"], "where", some ⟨"and", .notEqual, .integer Int64.minValue⟩⟩

theorem render_reads_back_quoted :
    quotedSelection.WellFormed ∧
      quotedSelection.render = "SELECT 'from','*','','it'\"'\"'s','a, \"b' FROM 'where' " ++
        "WHERE and != -9223372036854775808" ∧
      Statement.ofText quotedSelection.render = .ok (.select quotedSelection) ∧
      Statement.ofText (quotedSelection.render ++ ";") = .ok (.select quotedSelection) ∧
      Script.parse quotedSelection.render = .ok [.select quotedSelection] := by
  have hwell : quotedSelection.WellFormed := by
    refine ⟨?_, ?_⟩
    · intro names hnames
      cases hnames
      decide
    · intro condition hcondition
      cases hcondition
      exact Lexeme.isWord_of_all rfl rfl rfl
  have htexts : ∀ text ∈ quotedSelection.texts, delimiter ∉ text.toList ∧ '\n' ∉ text.toList := by
    decide +kernel
  obtain ⟨hread, hterminated, hscript⟩ := render_reads_back.1 quotedSelection hwell
  exact ⟨hwell, by decide +kernel, hread, hterminated, hscript htexts⟩

end Selection

end Tabular
