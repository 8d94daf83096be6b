import Tabular.Proofs.Script
import Tabular.Proofs.Separator

/-! # Scripts in parts

A script is parsed part by part: what is before a terminator and what is behind it do
not matter to each other. Which terminator it is makes no difference either, and a
carriage return before a line feed is white space at the end of a statement.
-/

namespace Tabular

namespace Statement

/-- A text without a delimiter states the same with one at its end. -/
theorem ofText_terminated_of_notMem {text : List Char} (hdelimiter : delimiter ∉ text) :
    ofText (Script.terminated text) = ofText (String.ofList text) := by
  have hbreak : Token.IsBreak delimiter := .inl rfl
  rw [ofText, ofText, Token.ofText, Token.ofText, Script.toList_terminated, String.toList_ofList,
    Token.read_concat_break hbreak]
  cases hread : Token.read .empty text with
  | error e => rfl
  | ok tokens =>
      have hlast : tokens.getLast?.any Token.isDelimiter = false := by
        cases hlast : tokens.getLast? with
        | none => rfl
        | some last =>
            -- The delimiter as a token would have its character from the text.
            by_contra hdelimits
            have hterminator : last = Token.terminator := by
              simpa [Token.isDelimiter] using hdelimits
            have hmem : delimiter ∈ last.text.toList := by
              rw [hterminator]
              decide
            rcases Token.mem_of_mem_read hread (List.mem_of_getLast? hlast) hmem with hword | htext
            · cases hword
            · exact hdelimiter htext
      have hterminated : withoutTerminator (tokens ++ [Token.terminator]) = tokens := by
        rw [withoutTerminator, List.getLast?_concat, List.dropLast_concat]
        rfl
      have hplain : withoutTerminator tokens = tokens := by
        rw [withoutTerminator, hlast]
        rfl
      change ofTokens (tokens ++ [Token.terminator]) = ofTokens tokens
      rw [ofTokens, ofTokens, hterminated, hplain]

end Statement

namespace Script

/-- What a part of a script states, once it has its delimiter. -/
def readPart (part : List Char) : Except ParseError Statement :=
  Statement.ofText (terminated part)

/-- The part holds more than white space. -/
def isVisible (part : List Char) : Bool :=
  !part.all Text.isBlank

theorem isBlank_terminated {part : List Char} (hdelimiter : delimiter ∉ part) :
    isBlank (terminated part) = part.all Text.isBlank := by
  have hends : ([delimiter].all fun c => c == delimiter || Text.isBlank c) = true := by decide
  rw [isBlank, toList_terminated, List.all_append, hends, Bool.and_true, Bool.eq_iff_iff,
    List.all_eq_true, List.all_eq_true]
  refine forall₂_congr fun c hc => ?_
  have hne : c ≠ delimiter := fun heq => hdelimiter (heq ▸ hc)
  simp [hne]

theorem delimiter_notMem_of_mem_splitOnP {text part : List Char}
    (hpart : part ∈ text.splitOnP isTerminator) : delimiter ∉ part := fun hmem =>
  absurd (Text.mem_of_mem_splitOnP hpart hmem).2 (by decide)

/-- The parts of a script that are made statements are all of them but for a blank one at
the end, so that they have the same visible parts. -/
theorem filter_statements (source : String) :
    (statements source).filter (fun statement => !isBlank statement) =
      ((source.toList.splitOnP isTerminator).filter isVisible).map terminated := by
  have hfilter : ∀ parts : List (List Char), (∀ part ∈ parts, delimiter ∉ part) →
      (parts.map terminated).filter (fun statement => !isBlank statement) =
        (parts.filter isVisible).map terminated := by
    intro parts hparts
    rw [List.filter_map]
    congr 1
    apply List.filter_congr
    intro part hpart
    rw [Function.comp_apply, isBlank_terminated (hparts part hpart), isVisible]
  have hparts : ∀ part ∈ source.toList.splitOnP isTerminator, delimiter ∉ part :=
    fun part hpart => delimiter_notMem_of_mem_splitOnP hpart
  obtain ⟨init, last, hsplit⟩ :
      ∃ init last, source.toList.splitOnP isTerminator = init ++ [last] :=
    (List.eq_nil_or_concat' _).resolve_left (List.splitOnP_ne_nil _ _)
  rw [hsplit] at hparts ⊢
  rw [statements_eq, hsplit, kept_concat]
  split
  next hblank =>
    have hlast : [last].filter isVisible = [] := by
      simp [isVisible, List.all_eq_true.mpr hblank]
    rw [List.filter_append, hlast, List.append_nil]
    exact hfilter init fun part hpart => hparts part (List.mem_append_left _ hpart)
  next => exact hfilter _ hparts

/-- A script states what its visible parts state, in their order. -/
theorem parse_eq (source : String) :
    parse source = ((source.toList.splitOnP isTerminator).filter isVisible).mapM readPart := by
  rw [parse, filter_statements, List.mapM_map]
  rfl

/-- A script is parsed part by part, whatever terminator is between the parts. -/
theorem parse_append_terminator (cut : Char) (hcut : isTerminator cut = true)
    (first second : String) :
    parse (first ++ String.singleton cut ++ second) = do
      let before ← parse first
      let after ← parse second
      return before ++ after := by
  have hchars : (first ++ String.singleton cut ++ second).toList =
      first.toList ++ cut :: second.toList := by simp
  rw [parse_eq, hchars, List.splitOnP_append_cons _ _ hcut, List.filter_append, List.mapM_append, parse_eq,
    parse_eq]

/-- A text without terminators states one thing, or nothing if it is blank. -/
theorem parse_of_uncut {text : String} (huncut : Uncut text.toList) :
    parse text = if text.toList.all Text.isBlank then .ok []
      else (Statement.ofText text).map fun statement => [statement] := by
  have hdelimiter : delimiter ∉ text.toList := fun hmem => absurd (huncut _ hmem) (by decide)
  rw [parse_eq, List.splitOnP_eq_singleton huncut]
  split
  next hblank => simp [isVisible, hblank, pure, Except.pure]
  next hvisible =>
    have hkept : [text.toList].filter isVisible = [text.toList] := by
      simp [isVisible, hvisible]
    rw [hkept, List.mapM_cons, List.mapM_nil, readPart,
      Statement.ofText_terminated_of_notMem hdelimiter, String.ofList_toList]
    cases Statement.ofText text <;> rfl

/-- The text with each of its line feeds replaced. -/
def endLines (ending : List Char) (source : String) : String :=
  String.ofList (source.toList.flatMap fun c => if c = '\n' then ending else [c])

/-- The second part is the first one, perhaps with a carriage return behind it. -/
def SameLine (first second : List Char) : Prop :=
  second = first ∨ second = first ++ ['\r']

theorem SameLine.cons {first second : List Char} (hsame : SameLine first second) (c : Char) :
    SameLine (c :: first) (c :: second) := by
  rcases hsame with rfl | rfl
  · exact .inl rfl
  · exact .inr rfl

theorem SameLine.isVisible {first second : List Char} (hsame : SameLine first second) :
    isVisible second = isVisible first := by
  rcases hsame with rfl | rfl
  · rfl
  · have hreturn : Text.isBlank '\r' = true := by decide
    simp [Script.isVisible, hreturn]

/-- A carriage return at the end of a part is white space, or is inside a quote that is
left open all the same. -/
theorem SameLine.readPart {first second : List Char} (hsame : SameLine first second) :
    readPart second = readPart first := by
  rcases hsame with rfl | rfl
  · rfl
  · have hdelimiter : Token.IsBreak delimiter := .inl rfl
    have hreturn : Token.IsBreak '\r' := .inr (by decide)
    have hnone : Token.ofBreak '\r' = [] := by decide
    rw [Script.readPart, Script.readPart, Statement.ofText, Statement.ofText, Token.ofText,
      Token.ofText, toList_terminated, toList_terminated, Token.read_concat_break hdelimiter,
      Token.read_concat_break hdelimiter, Token.read_concat_break hreturn, hnone]
    cases Token.read .empty first <;> simp [Except.map]

theorem mapM_readPart_congr {parts others : List (List Char)}
    (hparts : List.Forall₂ SameLine parts others) :
    (others.filter isVisible).mapM readPart = (parts.filter isVisible).mapM readPart := by
  induction hparts with
  | nil => rfl
  | cons hpart hrest ih =>
      rw [List.filter_cons, List.filter_cons, hpart.isVisible]
      split
      · rw [List.mapM_cons, List.mapM_cons, hpart.readPart, ih]
      · exact ih

/-- Where line feeds are replaced by another terminator, perhaps with a carriage return
before it, a text has the same parts but for these carriage returns. -/
theorem splitOnP_endLines {lead : List Char} (hlead : SameLine [] lead) {cut : Char}
    (hcut : isTerminator cut = true) (text : List Char) :
    List.Forall₂ SameLine (text.splitOnP isTerminator)
      ((text.flatMap fun c => if c = '\n' then lead ++ [cut] else [c]).splitOnP isTerminator) := by
  have hsplit : ∀ {c : Char}, isTerminator c = true → ∀ rest : List Char,
      (c :: rest).splitOnP isTerminator = [] :: rest.splitOnP isTerminator :=
    fun hc rest => List.splitOnP_append_cons [] rest hc
  induction text with
  | nil => exact .cons (.inl rfl) .nil
  | cons c rest ih =>
      rw [List.flatMap_cons]
      by_cases hline : c = '\n'
      · have huncut : lead.splitOnP isTerminator = [lead] := by
          rcases hlead with rfl | rfl <;> rfl
        rw [if_pos hline, List.append_assoc, List.singleton_append,
          List.splitOnP_append_cons _ _ hcut, huncut, hline, hsplit rfl]
        exact .cons hlead ih
      · rw [if_neg hline, List.singleton_append]
        by_cases hends : isTerminator c = true
        · rw [hsplit hends, hsplit hends]
          exact .cons (.inl rfl) ih
        · -- The character goes to the front of the first part on both sides.
          rw [List.splitOnP_cons_eq_if_modifyHead, List.splitOnP_cons_eq_if_modifyHead,
            if_neg hends, if_neg hends]
          generalize rest.splitOnP isTerminator = parts at ih ⊢
          generalize (rest.flatMap _).splitOnP isTerminator = others at ih ⊢
          cases ih with
          | nil => exact .nil
          | cons hfirst hothers => exact .cons (hfirst.cons c) hothers

theorem parse_endLines {lead : List Char} (hlead : SameLine [] lead) {cut : Char}
    (hcut : isTerminator cut = true) (source : String) :
    parse (endLines (lead ++ [cut]) source) = parse source := by
  rw [parse_eq, parse_eq, endLines, String.toList_ofList]
  exact mapM_readPart_congr (splitOnP_endLines hlead hcut source.toList)

/-- Scripts one behind the other are parsed one after the other, be there a delimiter or a
line feed between them, up to the first that cannot be parsed. Line feeds may be replaced
by delimiters, or have carriage returns before them. Without any terminator a script is a
single statement, or none if it is blank. -/
theorem parse_composes :
    (∀ first second : String,
      parse (first ++ ";" ++ second) = parse (first ++ "\n" ++ second) ∧
        parse (first ++ ";" ++ second) = do
          let before ← parse first
          let after ← parse second
          return before ++ after) ∧
      (∀ source : String, parse (endLines [';'] source) = parse source ∧
        parse (endLines ['\r', '\n'] source) = parse source) ∧
      ∀ text : String, delimiter ∉ text.toList → '\n' ∉ text.toList →
        parse text = if text.toList.all Text.isBlank then .ok []
          else (Statement.ofText text).map fun statement => [statement] := by
  refine ⟨fun first second => ?_, fun source => ⟨?_, ?_⟩, fun text hdelimiter hline => ?_⟩
  · have hsemicolon := parse_append_terminator ';' rfl first second
    have hfeed := parse_append_terminator '\n' rfl first second
    exact ⟨hsemicolon.trans hfeed.symm, hsemicolon⟩
  · exact parse_endLines (.inl rfl) rfl source
  · exact parse_endLines (.inr rfl) rfl source
  · exact parse_of_uncut (uncut_of_notMem hdelimiter hline)

/-- A quote that is left open at the end of its line fails the line alone and the script. -/
theorem parse_composes_open_quote :
    delimiter ∉ "drop 'a".toList ∧ '\n' ∉ "drop 'a".toList ∧
      parse "drop 'a" = .error .unterminatedQuote ∧
      parse ("alter" ++ "\n" ++ "drop 'a") = .error .unterminatedQuote ∧
      parse (endLines ['\r', '\n'] "alter\n\ndrop ','\n") =
        .ok [.unsupported .alter, .unsupported .drop] := by
  have hdelimiter : delimiter ∉ "drop 'a".toList := by decide
  have hline : '\n' ∉ "drop 'a".toList := by decide
  have hsingle : parse "drop 'a" = .error .unterminatedQuote := by
    rw [parse_composes.2.2 "drop 'a" hdelimiter hline]
    decide +kernel
  refine ⟨hdelimiter, hline, hsingle, ?_, ?_⟩
  · obtain ⟨hfeed, hparts⟩ := parse_composes.1 "alter" "drop 'a"
    rw [← hfeed, hparts, hsingle]
    decide +kernel
  · rw [(parse_composes.2.1 "alter\n\ndrop ','\n").2]
    decide +kernel

end Script

end Tabular
