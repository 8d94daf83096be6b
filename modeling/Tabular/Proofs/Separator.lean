import Tabular.Proofs.Outcome
import Tabular.Proofs.Token

/-! # Tokens on both sides of a separator

A text whose quotes are all closed can be read apart from what follows it, if a
separator or a delimiter is between the two. If a quote is left open, the rest of the
statement is inside it, up to the next quote at least.
-/

namespace Tabular.Token

/-- The character ends the word before it wherever it is not quoted. -/
def IsBreak (c : Char) : Prop :=
  c = delimiter ∨ isSeparator c = true

/-- The tokens that a character which ends a word amounts to. -/
def ofBreak (c : Char) : List Token :=
  if c = delimiter then [terminator] else []

theorem isQuote_eq_false_of_isBreak {c : Char} (hbreak : IsBreak c) : isQuote c = false := by
  have hne : ∀ other, other ≠ delimiter → isSeparator other = false → c ≠ other := by
    rintro other hother hword rfl
    rcases hbreak with hdelimiter | hseparator
    · exact hother hdelimiter
    · rw [hword] at hseparator
      cases hseparator
  simp [isQuote, hne '\'' (by decide) (by decide), hne '"' (by decide) (by decide)]

variable {pending : Pending} {text rest : List Char} {tokens : List Token} {c : Char}

theorem read_break (hbreak : IsBreak c) (hclosed : pending.openQuote = none) (rest : List Char) :
    read pending (c :: rest) =
      (read .empty rest).map fun following => pending.tokens ++ ofBreak c ++ following := by
  rw [read]
  simp only [hclosed, isQuote_eq_false_of_isBreak hbreak, Bool.false_eq_true, if_false, ofBreak]
  by_cases hdelimiter : c = delimiter
  · rw [if_pos hdelimiter, if_pos hdelimiter]
    cases read .empty rest with
    | error e => rfl
    | ok following => simp [Except.map]
  · have hseparator : isSeparator c = true := hbreak.resolve_left hdelimiter
    rw [if_neg hdelimiter, if_neg hdelimiter, if_pos hseparator, List.append_nil]
    cases read .empty rest <;> rfl

/-- A separator ends a word and is no token of its own. -/
theorem isBreak_of_isSeparator (hseparator : isSeparator c = true) : IsBreak c ∧ ofBreak c = [] := by
  have hdelimiter : c ≠ delimiter := by
    rintro rfl
    cases hseparator
  exact ⟨.inr hseparator, if_neg hdelimiter⟩

theorem read_gap {gap : List Char} (hgap : ∀ c ∈ gap, isSeparator c = true) (rest : List Char) :
    read .empty (gap ++ rest) = read .empty rest := by
  induction gap with
  | nil => rfl
  | cons c gap ih =>
      obtain ⟨hc, hgap⟩ := List.forall_mem_cons.mp hgap
      obtain ⟨hbreak, hnone⟩ := isBreak_of_isSeparator hc
      rw [List.cons_append, read_break hbreak rfl, ih hgap, hnone]
      cases read .empty rest <;> rfl

/-- Separators, be they one or many, end the word before them. -/
theorem follow_gap {gap : List Char} (hgap : ∀ c ∈ gap, isSeparator c = true) (hsome : gap ≠ [])
    (hread : read .empty rest = .ok tokens) : Follow tokens (gap ++ rest) := by
  intro word quoted
  obtain ⟨c, gap, rfl⟩ := List.exists_cons_of_ne_nil hsome
  obtain ⟨hc, hgap⟩ := List.forall_mem_cons.mp hgap
  obtain ⟨hbreak, hnone⟩ := isBreak_of_isSeparator hc
  rw [List.cons_append, read_break hbreak rfl, read_gap hgap, hread, hnone, List.append_nil]
  rfl

/-- A character of a statement quotes, ends the word before it, or is part of it. -/
theorem isPlain_eq_true_iff {c : Char} : isPlain c = true ↔ isQuote c = false ∧ ¬IsBreak c := by
  rw [IsBreak, not_or, isPlain]
  simp only [Bool.and_eq_true, Bool.not_eq_true', bne_iff_ne, ne_eq, Bool.not_eq_true, and_assoc]

/-- The word goes on: the character closes its quote or opens one, or belongs to the word,
inside of a quote or as a plain character. -/
inductive Pending.Goes (pending : Pending) (c : Char) : Pending → Prop
  | closes (hopen : pending.openQuote = some c) : pending.Goes c { pending with openQuote := none }
  | opens (hclosed : pending.openQuote = none) (hquote : isQuote c = true) :
      pending.Goes c { pending with quoted := true, openQuote := some c }
  | quoted {quote : Char} (hopen : pending.openQuote = some quote) (hother : c ≠ quote) :
      pending.Goes c (pending.push c)
  | plain (hclosed : pending.openQuote = none) (hplain : isPlain c = true) :
      pending.Goes c (pending.push c)

/-- A character ends the word before it, or the word goes on. -/
theorem read_cons (pending : Pending) (c : Char) :
    (IsBreak c ∧ pending.openQuote = none) ∨
      ∃ next, pending.Goes c next ∧ ∀ rest, read pending (c :: rest) = read next rest := by
  cases hopen : pending.openQuote with
  | some quote =>
      right
      by_cases hclose : c = quote
      · subst hclose
        refine ⟨_, .closes hopen, fun rest => ?_⟩
        simp only [read, hopen, if_true]
      · refine ⟨_, .quoted hopen hclose, fun rest => ?_⟩
        simp only [read, hopen, if_neg hclose]
  | none =>
      by_cases hbreak : IsBreak c
      · exact .inl ⟨hbreak, rfl⟩
      · right
        by_cases hquote : isQuote c = true
        · refine ⟨_, .opens hopen hquote, fun rest => ?_⟩
          simp only [read, hopen, hquote, if_true]
        · rw [Bool.not_eq_true] at hquote
          refine ⟨_, .plain hopen (isPlain_eq_true_iff.mpr ⟨hquote, hbreak⟩), fun rest => ?_⟩
          rw [IsBreak, not_or] at hbreak
          simp only [read, hopen, hquote, hbreak.1, hbreak.2, Bool.false_eq_true, if_false]

theorem Pending.Goes.mem_word {next : Pending} (hgoes : pending.Goes c next) {d : Char}
    (hd : d ∈ next.word) : d = c ∨ d ∈ pending.word := by
  cases hgoes with
  | closes => exact .inr hd
  | opens => exact .inr hd
  | quoted => exact List.mem_cons.mp hd
  | plain => exact List.mem_cons.mp hd

/-- Only quotes are ever open. -/
theorem Pending.Goes.isQuote {next : Pending} (hgoes : pending.Goes c next)
    (hopen : ∀ quote ∈ pending.openQuote, isQuote quote = true) :
    ∀ quote ∈ next.openQuote, Token.isQuote quote = true := by
  cases hgoes with
  | closes => exact nofun
  | opens hclosed hquote =>
      rintro quote ⟨⟩
      exact hquote
  | quoted => exact hopen
  | plain => exact hopen

/-- A text with all quotes closed has tokens of its own, and what follows it behind a
break has its own as well. -/
theorem read_append_break (hbreak : IsBreak c) (hread : read pending text = .ok tokens)
    (rest : List Char) :
    read pending (text ++ c :: rest) =
      (read .empty rest).map fun following => tokens ++ ofBreak c ++ following := by
  induction text generalizing pending tokens with
  | nil =>
      rw [read] at hread
      split at hread
      · cases hread
      next hclosed =>
        cases hread
        exact read_break hbreak hclosed rest
  | cons d text ih =>
      rw [List.cons_append]
      rcases read_cons pending d with ⟨hends, hclosed⟩ | ⟨next, -, hnext⟩
      · rw [read_break hends hclosed] at hread ⊢
        obtain ⟨before, hbefore, rfl⟩ := Outcome.map_eq_ok.mp hread
        rw [ih hbefore]
        cases read .empty rest <;> simp [Except.map]
      · rw [hnext] at hread ⊢
        exact ih hread

theorem read_of_openQuote {quote : Char} (hopen : pending.openQuote = some quote)
    (hquote : quote ∉ text) : read pending text = .error .unterminatedQuote := by
  induction text generalizing pending with
  | nil => simp only [read, hopen]
  | cons c text ih =>
      obtain ⟨hc, hquote⟩ := not_or.mp (mt List.mem_cons.mpr hquote)
      simp only [read, hopen, if_neg (Ne.symm hc)]
      exact ih hopen hquote

/-- A quote that a text leaves open stays open if no quote follows. -/
theorem read_append_of_error {e : ParseError}
    (hopen : ∀ quote ∈ pending.openQuote, isQuote quote = true)
    (hfails : read pending text = .error e) (hrest : ∀ c ∈ rest, isQuote c = false) :
    read pending (text ++ rest) = .error .unterminatedQuote := by
  induction text generalizing pending with
  | nil =>
      rw [read] at hfails
      split at hfails
      next quote hquote =>
        apply read_of_openQuote hquote
        intro hmem
        have hquoting := hopen quote hquote
        rw [hrest quote hmem] at hquoting
        cases hquoting
      · cases hfails
  | cons c text ih =>
      rw [List.cons_append]
      rcases read_cons pending c with ⟨hends, hclosed⟩ | ⟨next, hgoes, hnext⟩
      · rw [read_break hends hclosed] at hfails ⊢
        cases hread : read .empty text with
        | ok tokens =>
            rw [hread] at hfails
            cases hfails
        | error e' =>
            rw [hread] at hfails
            cases hfails
            rw [ih (by rintro quote ⟨⟩) hread]
            rfl
      · rw [hnext] at hfails ⊢
        exact ih (hgoes.isQuote hopen) hfails

theorem read_empty_append_of_error {e : ParseError} (hfails : read .empty text = .error e)
    (hrest : ∀ c ∈ rest, isQuote c = false) :
    read .empty (text ++ rest) = .error .unterminatedQuote :=
  read_append_of_error nofun hfails hrest

/-- A quote that is left open is all that can be wrong with a text. -/
theorem eq_unterminatedQuote_of_read {e : ParseError} (hfails : read .empty text = .error e) :
    e = .unterminatedQuote := by
  have hcause : read .empty (text ++ []) = .error .unterminatedQuote :=
    read_empty_append_of_error hfails nofun
  rw [List.append_nil, hfails] at hcause
  cases hcause
  rfl

/-- A break at the end of a text adds its own token, if it has one. A quote that the
text leaves open is left open all the same. -/
theorem read_concat_break (hbreak : IsBreak c) (text : List Char) :
    read .empty (text ++ [c]) = (read .empty text).map (· ++ ofBreak c) := by
  cases hread : read .empty text with
  | ok tokens =>
      have hempty : read .empty [] = .ok [] := rfl
      rw [read_append_break hbreak hread, hempty]
      simp [Except.map]
  | error e =>
      have hquote : ∀ d ∈ [c], isQuote d = false := by
        simpa using isQuote_eq_false_of_isBreak hbreak
      rw [read_empty_append_of_error hread hquote, eq_unterminatedQuote_of_read hread]
      rfl

/-- Tokens have no characters but those of the text. -/
theorem mem_of_mem_read (hread : read pending text = .ok tokens) {token : Token}
    (htoken : token ∈ tokens) {d : Char} (hd : d ∈ token.text.toList) :
    d ∈ pending.word ∨ d ∈ text := by
  have hpending : ∀ {word : Pending}, token ∈ word.tokens → d ∈ word.word := by
    intro word hmem
    unfold Pending.tokens at hmem
    split at hmem
    · cases hmem
    · rw [List.mem_singleton.mp hmem] at hd
      simpa using hd
  induction text generalizing pending tokens with
  | nil =>
      rw [read] at hread
      split at hread
      · cases hread
      · cases hread
        exact .inl (hpending htoken)
  | cons c text ih =>
      rcases read_cons pending c with ⟨hends, hclosed⟩ | ⟨next, hgoes, hnext⟩
      · rw [read_break hends hclosed] at hread
        obtain ⟨following, hfollowing, rfl⟩ := Outcome.map_eq_ok.mp hread
        rw [List.mem_append, List.mem_append] at htoken
        rcases htoken with (hmem | hmem) | hmem
        · exact .inl (hpending hmem)
        · right
          unfold ofBreak at hmem
          split at hmem
          next hdelimiter =>
            rw [List.mem_singleton.mp hmem] at hd
            have hd : d ∈ [delimiter] := hd
            rw [List.mem_singleton.mp hd, hdelimiter]
            exact List.mem_cons_self
          · cases hmem
        · exact .inr (List.mem_cons_of_mem c ((ih hfollowing hmem).resolve_left List.not_mem_nil))
      · rw [hnext] at hread
        rcases ih hread htoken with hmem | hmem
        · rcases hgoes.mem_word hmem with rfl | hmem
          · exact .inr List.mem_cons_self
          · exact .inl hmem
        · exact .inr (List.mem_cons_of_mem c hmem)

/-! ## Texts put together -/

variable {first second : String} {following : List Token} {e : ParseError}

theorem ofText_append_break (hbreak : IsBreak c) (hfirst : ofText first = .ok tokens)
    (second : String) :
    ofText (first ++ String.singleton c ++ second) =
      (ofText second).map fun following => tokens ++ ofBreak c ++ following := by
  have hchars : (first ++ String.singleton c ++ second).toList =
      first.toList ++ c :: second.toList := by simp
  rw [ofText, hchars, read_append_break hbreak hfirst]
  rfl

/-- The second text is read behind a break as it is by itself. -/
theorem ofText_append_break_ok (hbreak : IsBreak c) (hfirst : ofText first = .ok tokens)
    (hsecond : ofText second = .ok following) :
    ofText (first ++ String.singleton c ++ second) = .ok (tokens ++ ofBreak c ++ following) := by
  rw [ofText_append_break hbreak hfirst, hsecond]
  rfl

theorem ofText_append_break_error (hbreak : IsBreak c) (hfirst : ofText first = .ok tokens)
    (hsecond : ofText second = .error e) :
    ofText (first ++ String.singleton c ++ second) = .error .unterminatedQuote := by
  rw [ofText_append_break hbreak hfirst, hsecond, eq_unterminatedQuote_of_read hsecond]
  rfl

/-- Two texts with a separator or a delimiter between them have the tokens of the first and
then those of the second, with the delimiter between them if it is one. If the second leaves a
quote open, so do both together. A quote that the first leaves open is not closed by a text
without quotes. -/
theorem ofText_apart :
    (∀ (first second : String) (tokens : List Token), ofText first = .ok tokens →
      (∀ following, ofText second = .ok following →
        (∀ c, c = ',' ∨ Text.isBlank c = true →
          ofText (first ++ String.singleton c ++ second) = .ok (tokens ++ following)) ∧
        ofText (first ++ ";" ++ second) = .ok (tokens ++ [⟨";", false⟩] ++ following)) ∧
      (∀ e, ofText second = .error e →
        (∀ c, c = ',' ∨ Text.isBlank c = true →
          ofText (first ++ String.singleton c ++ second) = .error .unterminatedQuote) ∧
        ofText (first ++ ";" ++ second) = .error .unterminatedQuote)) ∧
      ∀ (first second : String) (e : ParseError), ofText first = .error e →
        (∀ c ∈ second.toList, c ≠ '\'' ∧ c ≠ '"') →
        ofText (first ++ second) = .error .unterminatedQuote := by
  have hseparates : ∀ c, c = ',' ∨ Text.isBlank c = true → isSeparator c = true := by
    intro c hc
    simpa [isSeparator] using hc
  have hdelimiter : IsBreak delimiter := .inl rfl
  have hsign : ";" = String.singleton delimiter := rfl
  refine ⟨fun first second tokens hfirst => ⟨fun following hsecond => ⟨?_, ?_⟩,
    fun e hsecond => ⟨?_, ?_⟩⟩, ?_⟩
  · intro c hc
    obtain ⟨hbreak, hnone⟩ := isBreak_of_isSeparator (hseparates c hc)
    rw [ofText_append_break_ok hbreak hfirst hsecond, hnone, List.append_nil]
  · rw [hsign]
    exact ofText_append_break_ok hdelimiter hfirst hsecond
  · intro c hc
    exact ofText_append_break_error (isBreak_of_isSeparator (hseparates c hc)).1 hfirst hsecond
  · rw [hsign]
    exact ofText_append_break_error hdelimiter hfirst hsecond
  · intro first second e hfirst hsecond
    rw [ofText, String.toList_append]
    apply read_empty_append_of_error hfirst
    intro c hc
    simpa [isQuote] using hsecond c hc

/-- Commas and other quotes inside of quotes, words next to each other, and a quote that is left
open on the one side or the other. -/
theorem ofText_apart_quotes :
    ofText "a 'b,\"'c" = .ok [⟨"a", false⟩, ⟨"b,\"c", true⟩] ∧
      ofText ("a 'b,\"'c" ++ String.singleton ',' ++ "''d") =
        .ok [⟨"a", false⟩, ⟨"b,\"c", true⟩, ⟨"d", true⟩] ∧
      ofText ("a 'b,\"'c" ++ ";" ++ "''d") =
        .ok [⟨"a", false⟩, ⟨"b,\"c", true⟩, ⟨";", false⟩, ⟨"d", true⟩] ∧
      ofText ("a 'b,\"'c" ++ String.singleton '\t' ++ "'d") = .error .unterminatedQuote ∧
      ofText ("'d" ++ "; a") = .error .unterminatedQuote := by
  have hfirst : ofText "a 'b,\"'c" = .ok [⟨"a", false⟩, ⟨"b,\"c", true⟩] := by decide +kernel
  have hsecond : ofText "''d" = .ok [⟨"d", true⟩] := by decide +kernel
  have hopen : ofText "'d" = .error .unterminatedQuote := by decide +kernel
  obtain ⟨hread, hfails⟩ := ofText_apart.1 _ "''d" _ hfirst
  refine ⟨hfirst, ?_, ?_, ?_, ?_⟩
  · exact (hread _ hsecond).1 ',' (.inl rfl)
  · exact (hread _ hsecond).2
  · exact ((ofText_apart.1 _ "'d" _ hfirst).2 _ hopen).1 '\t' (.inr (by decide))
  · exact ofText_apart.2 "'d" "; a" _ hopen (by simp)

end Tabular.Token
