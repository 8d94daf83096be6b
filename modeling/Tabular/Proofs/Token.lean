import Tabular.Proofs.Text
import Tabular.Statement.Printer
import Tabular.Token.Reader

/-! # Words that are read back

A plain word and a text written as a quoted word are each one token, if what follows
ends the word. The tokens of a statement are found from its end by this.
-/

namespace Tabular.Token

/-- The character is part of a word and does not end or quote it. -/
def isPlain (c : Char) : Bool :=
  !isQuote c && c != delimiter && !isSeparator c

theorem read_plain {text : List Char} (hplain : ∀ c ∈ text, isPlain c = true) (word : List Char)
    (rest : List Char) :
    read ⟨word, false, none⟩ (text ++ rest) = read ⟨text.reverse ++ word, false, none⟩ rest := by
  induction text generalizing word with
  | nil => rfl
  | cons c text ih =>
      obtain ⟨hc, htext⟩ := List.forall_mem_cons.mp hplain
      unfold isPlain at hc
      simp only [Bool.and_eq_true, Bool.not_eq_true', bne_iff_ne, ne_eq] at hc
      obtain ⟨⟨hquote, hdelimiter⟩, hseparator⟩ := hc
      rw [List.cons_append, read]
      simp only [hquote, hdelimiter, hseparator, Bool.false_eq_true, if_false, Pending.push]
      rw [ih htext, List.reverse_cons, List.append_assoc]
      rfl

/-- Inside quotes everything up to the closing one belongs to the word. -/
theorem read_quoted {quote : Char} {text : List Char} (htext : quote ∉ text) (word : List Char)
    (rest : List Char) :
    read ⟨word, true, some quote⟩ (text ++ quote :: rest) =
      read ⟨text.reverse ++ word, true, none⟩ rest := by
  induction text generalizing word with
  | nil => simp [read]
  | cons c text ih =>
      rw [List.mem_cons, not_or] at htext
      obtain ⟨hc, htext⟩ := htext
      rw [List.cons_append, read]
      simp only [if_neg (Ne.symm hc), Pending.push]
      rw [ih htext, List.reverse_cons, List.append_assoc]
      rfl

theorem read_quoteRun {run : List Char} (hrun : '\'' ∉ run) (word : List Char) (quoted : Bool)
    (rest : List Char) :
    read ⟨word, quoted, none⟩ (quoteRun run ++ rest) =
      read ⟨run.reverse ++ word, quoted || !run.isEmpty, none⟩ rest := by
  cases run with
  | nil => simp [quoteRun]
  | cons c run =>
      have hopen : read ⟨word, quoted, none⟩ ('\'' :: (c :: run ++ '\'' :: rest)) =
          read ⟨word, true, some '\''⟩ (c :: run ++ '\'' :: rest) := rfl
      have hquoted : quoteRun (c :: run) ++ rest = '\'' :: (c :: run ++ '\'' :: rest) := by
        simp [quoteRun]
      rw [hquoted, hopen, read_quoted hrun]
      simp

/-- A single quote between double quotes is a character of the word. -/
theorem read_quotedQuote (word : List Char) (quoted : Bool) (rest : List Char) :
    read ⟨word, quoted, none⟩ ('"' :: '\'' :: '"' :: rest) =
      read ⟨'\'' :: word, true, none⟩ rest := rfl

theorem read_quoteRuns {runs : List (List Char)} (hruns : ∀ run ∈ runs, '\'' ∉ run)
    (word : List Char) (quoted : Bool) (rest : List Char) :
    read ⟨word, quoted, none⟩ (['"', '\'', '"'].intercalate (runs.map quoteRun) ++ rest) =
      read ⟨(['\''].intercalate runs).reverse ++ word,
        quoted || !(['\''].intercalate runs).isEmpty, none⟩ rest := by
  induction runs generalizing word quoted with
  | nil => simp
  | cons run runs ih =>
      obtain ⟨hrun, hruns⟩ := List.forall_mem_cons.mp hruns
      cases runs with
      | nil => simpa using read_quoteRun hrun word quoted rest
      | cons next runs =>
          -- What the other runs are read to does not depend on whether the word was
          -- quoted before: the quote in front of them is.
          have hrest := ih hruns ('\'' :: (run.reverse ++ word)) true
          have hquotes : ['"', '\'', '"'].intercalate ((run :: next :: runs).map quoteRun) ++ rest =
              quoteRun run ++ ('"' :: '\'' :: '"' ::
                (['"', '\'', '"'].intercalate ((next :: runs).map quoteRun) ++ rest)) := by
            simp only [List.map_cons, List.intercalate_cons_cons, List.append_assoc,
              List.cons_append, List.nil_append]
          have hsome : (run ++ ['\''] ++ ['\''].intercalate (next :: runs)).isEmpty = false := by
            rw [List.isEmpty_eq_false_iff]
            simp
          rw [hquotes, read_quoteRun hrun, read_quotedQuote, hrest, List.intercalate_cons_cons, hsome]
          simp

/-- A text that is written as a quoted word is read as that text. -/
theorem read_quoteWord (text : String) (word : List Char) (quoted : Bool) (rest : List Char) :
    read ⟨word, quoted, none⟩ (quoteWord text ++ rest) =
      read ⟨text.toList.reverse ++ word, true, none⟩ rest := by
  unfold quoteWord
  split
  next hempty =>
    rw [List.isEmpty_iff.mp hempty]
    rfl
  next hnonempty =>
    have hruns : ∀ run ∈ text.toList.splitOn '\'', '\'' ∉ run := fun run hrun hmem =>
      absurd (Text.mem_of_mem_splitOnP hrun hmem).2 (by decide)
    rw [read_quoteRuns hruns, List.intercalate_splitOn]
    simp [hnonempty]

/-- Any word that is being read ends before the rest of a statement, and the tokens of
the rest come after it. -/
def Follow (tokens : List Token) (rest : List Char) : Prop :=
  ∀ word quoted, read ⟨word, quoted, none⟩ rest =
    .ok (Pending.tokens ⟨word, quoted, none⟩ ++ tokens)

variable {tokens : List Token} {rest : List Char}

theorem follow_end : Follow [] [] := fun word quoted => by
  rw [read, List.append_nil]

theorem follow_delimiter (hrest : read .empty rest = .ok tokens) :
    Follow (terminator :: tokens) (delimiter :: rest) := by
  have hquote : isQuote delimiter = false := by decide
  intro word quoted
  rw [read]
  simp only [hquote, hrest, Bool.false_eq_true, if_false, if_true]

theorem follow_separator {c : Char} (hseparator : isSeparator c = true) (hquote : isQuote c = false)
    (hdelimiter : c ≠ delimiter) (hrest : read .empty rest = .ok tokens) :
    Follow tokens (c :: rest) := by
  intro word quoted
  rw [read]
  simp only [hquote, hdelimiter, hseparator, hrest, Bool.false_eq_true, if_false, if_true]

theorem follow_space (hrest : read .empty rest = .ok tokens) : Follow tokens (' ' :: rest) :=
  follow_separator (by decide) (by decide) (by decide) hrest

theorem follow_comma (hrest : read .empty rest = .ok tokens) : Follow tokens (',' :: rest) :=
  follow_separator (by decide) (by decide) (by decide) hrest

theorem Follow.read_plain (hfollow : Follow tokens rest) {word : List Char} (hword : word ≠ [])
    (hplain : ∀ c ∈ word, isPlain c = true) :
    read .empty (word ++ rest) = .ok (⟨String.ofList word, false⟩ :: tokens) := by
  rw [Pending.empty, Token.read_plain hplain, hfollow, Pending.tokens]
  simp [hword]

theorem Follow.read_quoteWord (hfollow : Follow tokens rest) (text : String) :
    read .empty (quoteWord text ++ rest) = .ok (⟨text, true⟩ :: tokens) := by
  rw [Pending.empty, Token.read_quoteWord, hfollow, Pending.tokens]
  simp

/-- A plain word before a space is a token of its own. -/
theorem read_word {word : String} (hplain : word.toList.all isPlain = true)
    (hword : word.toList ≠ []) (hrest : read .empty rest = .ok tokens) :
    read .empty (word.toList ++ ' ' :: rest) = .ok (⟨word, false⟩ :: tokens) := by
  rw [(follow_space hrest).read_plain hword (List.all_eq_true.mp hplain), String.ofList_toList]

/-- A text without single quotes stands between two of them. -/
theorem quoteWord_of_no_quote {text : String} (hquote : '\'' ∉ text.toList) :
    quoteWord text = '\'' :: text.toList ++ ['\''] := by
  rw [quoteWord]
  split
  next hempty =>
    rw [List.isEmpty_iff.mp hempty]
    rfl
  next hsome =>
    rw [List.splitOn_eq_singleton hquote, List.map_singleton, List.intercalate_singleton, quoteRun,
      if_neg hsome]

/-- A quoted word has no other characters than its text and the quotes. -/
theorem mem_of_mem_quoteWord {text : String} {c : Char} (hc : c ∈ quoteWord text) :
    c ∈ text.toList ∨ c = '\'' ∨ c = '"' := by
  rw [quoteWord] at hc
  split at hc
  · simp at hc
    exact .inr (.inl hc)
  · rcases Text.mem_intercalate hc with hseparator | ⟨part, hpart, hmem⟩
    · right
      simpa [or_comm] using hseparator
    · obtain ⟨run, hrun, rfl⟩ := List.mem_map.mp hpart
      rw [quoteRun] at hmem
      split at hmem
      · cases hmem
      · simp only [List.cons_append, List.mem_cons, List.mem_append, List.not_mem_nil, or_false]
          at hmem
        rcases hmem with rfl | hmem | rfl
        · exact .inr (.inl rfl)
        · exact .inl (Text.mem_of_mem_splitOnP hrun hmem).1
        · exact .inr (.inl rfl)

end Tabular.Token
