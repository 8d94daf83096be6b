import Tabular.Proofs.Seam

/-! # One lexeme off the start of a text

A turn takes the longest word or number off the start of a text, or the signs before the first of
these. It takes at least one character. The lexeme that it takes is of its kind, it is the only
one that it could take, and it is the first of the pieces of the text.
-/

namespace Tabular.Lexeme

variable {text behind signs rest more : List Char} {lexeme : Lexeme} {c : Char}

/-! ## Turns -/

/-- A digit, with or without a minus sign before it, and characters of words behind it. -/
inductive IsNumber : List Char → Prop
  | plain {digit : Char} {more : List Char} (hdigit : digit.isDigit = true)
    (hmore : ∀ c ∈ more, isWordChar c = true) : IsNumber (digit :: more)
  | negative {digit : Char} {more : List Char} (hdigit : digit.isDigit = true)
    (hmore : ∀ c ∈ more, isWordChar c = true) : IsNumber ('-' :: digit :: more)

/-- There are only signs before the rest of a token: no character of words, and no minus sign
that is directly followed by a digit. -/
structure OnlySigns (signs behind : List Char) : Prop where
  chars : ∀ c ∈ signs, isWordChar c = false
  minus : ∀ before after, signs = before ++ '-' :: after →
    ∀ c ∈ (after ++ behind).head?, c.isDigit = false

/-- The lexeme is what its kind says, before the rest of its token. -/
def Fits (behind : List Char) : Lexeme → Prop
  | .word text => IsWord text
  | .number text => IsNumber text.toList
  | .symbol text => text.toList ≠ [] ∧ OnlySigns text.toList behind
  | .quoted _ => False

/-- The lexeme goes on with characters of words. -/
def IsWordLike : Lexeme → Prop
  | .word _ => True
  | .number _ => True
  | _ => False

/-- A turn takes a lexeme that fits off the start of a text. It ends where a lexeme of its kind
cannot go on. -/
inductive Turn : List Char → Lexeme → List Char → Prop
  | word {text : String} {behind : List Char} (hword : IsWord text)
    (hends : ∀ c ∈ behind.head?, isWordChar c = false) :
    Turn (text.toList ++ behind) (.word text) behind
  | number {text : String} {behind : List Char} (hnumber : IsNumber text.toList)
    (hends : ∀ c ∈ behind.head?, isWordChar c = false) :
    Turn (text.toList ++ behind) (.number text) behind
  | symbol {text : String} {behind : List Char} (hsome : text.toList ≠ [])
    (hsigns : OnlySigns text.toList behind) (hends : behind ≠ [] → opensWord behind = true) :
    Turn (text.toList ++ behind) (.symbol text) behind

theorem isDigit_eq_false (hc : isWordChar c = false) : c.isDigit = false := by
  by_contra hdigit
  rw [isWordChar_of_isDigit (by simpa using hdigit)] at hc
  cases hc

theorem startsNegative_cons_cons (c d : Char) (rest : List Char) :
    startsNegative (c :: d :: rest) = (c == '-' && d.isDigit) := by
  by_cases hminus : c = '-'
  · subst hminus
    rfl
  · simp [startsNegative, hminus]

theorem startsNegative_eq_false_iff : startsNegative (c :: rest) = false ↔
    (c = '-' → ∀ d ∈ rest.head?, d.isDigit = false) := by
  cases rest with
  | nil => simp [startsNegative]
  | cons d rest => simp [startsNegative_cons_cons]

theorem startsNegative_singleton (c : Char) : startsNegative [c] = false :=
  startsNegative_eq_false_iff.mpr fun _ _ hd => nomatch hd

theorem opensWord_eq_false_iff : opensWord (c :: rest) = false ↔
    isWordChar c = false ∧ (c = '-' → ∀ d ∈ rest.head?, d.isDigit = false) := by
  rw [opensWord, Bool.or_eq_false_iff, startsNegative_eq_false_iff]

theorem onlySigns_nil (behind : List Char) : OnlySigns [] behind where
  chars := nofun
  minus before after hnil := by simp at hnil

theorem onlySigns_cons_iff : OnlySigns (c :: signs) behind ↔
    opensWord (c :: (signs ++ behind)) = false ∧ OnlySigns signs behind := by
  rw [opensWord_eq_false_iff]
  constructor
  · intro hsigns
    obtain ⟨hc, hchars⟩ := List.forall_mem_cons.mp hsigns.chars
    refine ⟨⟨hc, ?_⟩, hchars, ?_⟩
    · rintro rfl
      exact hsigns.minus [] signs rfl
    · rintro before after rfl
      exact hsigns.minus (c :: before) after rfl
  · rintro ⟨⟨hc, hminus⟩, hsigns⟩
    refine ⟨List.forall_mem_cons.mpr ⟨hc, hsigns.chars⟩, ?_⟩
    -- A minus sign is the first of the signs or one of the others.
    intro before after hsplit
    cases before with
    | nil =>
        cases hsplit
        exact hminus rfl
    | cons first before =>
        cases hsplit
        exact hsigns.minus before after rfl

theorem OnlySigns.startsNegative_eq_false (hsigns : OnlySigns (c :: signs) behind) :
    startsNegative (c :: signs) = false := by
  rw [startsNegative_eq_false_iff]
  rintro rfl d hd
  exact hsigns.minus [] signs rfl d (List.mem_head?_append_of_mem_head? hd)

/-- The signs at the start of a text are signs only, and they end where a word or a number
starts or the text ends. -/
theorem onlySigns_spanSigns (text : List Char) :
    OnlySigns (spanSigns text).1 (spanSigns text).2 ∧
      ((spanSigns text).2 ≠ [] → opensWord (spanSigns text).2 = true) := by
  induction text with
  | nil => exact ⟨onlySigns_nil [], fun hsome => absurd rfl hsome⟩
  | cons c rest ih =>
      rw [spanSigns]
      split
      next hopens => exact ⟨onlySigns_nil _, fun _ => hopens⟩
      next hopens =>
        refine ⟨onlySigns_cons_iff.mpr ⟨?_, ih.1⟩, ih.2⟩
        rw [spanSigns_append]
        simpa using hopens

theorem OnlySigns.spanSigns_eq (hsigns : OnlySigns signs behind)
    (hopens : behind ≠ [] → opensWord behind = true) :
    spanSigns (signs ++ behind) = (signs, behind) := by
  induction signs with
  | nil =>
      cases behind with
      | nil => rfl
      | cons c rest => rw [List.nil_append, spanSigns, if_pos (hopens (List.cons_ne_nil c rest))]
  | cons c signs ih =>
      obtain ⟨hc, hrest⟩ := onlySigns_cons_iff.mp hsigns
      rw [List.cons_append, spanSigns, hc, if_neg Bool.false_ne_true, ih hrest]

theorem firstWord_turn (hopens : opensWord (c :: rest) = true) :
    Turn (c :: rest) (firstWord c rest) (rest.dropWhile isWordChar) := by
  have hmore : ∀ d ∈ rest.takeWhile isWordChar, isWordChar d = true :=
    List.all_eq_true.mp List.all_takeWhile
  have hends : ∀ d ∈ (rest.dropWhile isWordChar).head?, isWordChar d = false := by
    intro d hd
    have hhead := List.head?_dropWhile_not isWordChar rest
    rwa [Option.mem_def.mp hd] at hhead
  have htext : (String.ofList (c :: rest.takeWhile isWordChar)).toList ++
      rest.dropWhile isWordChar = c :: rest := by
    rw [String.toList_ofList, List.cons_append, List.takeWhile_append_dropWhile]
  rw [← htext, firstWord]
  split
  next hnumber =>
    refine .number ?_ hends
    rw [String.toList_ofList]
    by_cases hdigit : c.isDigit = true
    · exact .plain hdigit hmore
    · -- A minus sign is before a digit, which is the first of the characters of words.
      have hnegative : startsNegative (c :: rest) = true := by simpa [hdigit] using hnumber
      unfold startsNegative at hnegative
      split at hnegative
      next digit others hminus =>
        cases hminus
        rw [List.takeWhile_cons_of_pos (isWordChar_of_isDigit hnegative)] at hmore ⊢
        exact .negative hnegative (List.forall_mem_cons.mp hmore).2
      next => cases hnegative
  next hnumber =>
    rw [Bool.or_eq_true, not_or, Bool.not_eq_true, Bool.not_eq_true] at hnumber
    obtain ⟨hnegative, hdigit⟩ := hnumber
    have hc : isWordChar c = true := by simpa [opensWord, hnegative] using hopens
    refine .word (isWord_of_all (by rw [String.toList_ofList]; rfl) hdigit ?_) hends
    rw [String.toList_ofList, List.all_cons, hc, Bool.true_and]
    exact List.all_takeWhile

theorem takeFirst_turn (c : Char) (rest : List Char) :
    Turn (c :: rest) (takeFirst c rest).1 (takeFirst c rest).2 := by
  unfold takeFirst
  split
  next hopens => exact firstWord_turn hopens
  next hopens =>
    obtain ⟨hsigns, hends⟩ := onlySigns_spanSigns rest
    have htext : (String.ofList (c :: (spanSigns rest).1)).toList ++ (spanSigns rest).2 =
        c :: rest := by
      rw [String.toList_ofList, List.cons_append, spanSigns_append]
    have hturn : Turn ((String.ofList (c :: (spanSigns rest).1)).toList ++ (spanSigns rest).2)
        (.symbol (String.ofList (c :: (spanSigns rest).1))) (spanSigns rest).2 := by
      refine .symbol (by simp) ?_ hends
      rw [String.toList_ofList, onlySigns_cons_iff, spanSigns_append]
      exact ⟨by simpa using hopens, hsigns⟩
    rwa [htext] at hturn

/-! ## Lexemes in their places -/

theorem Turn.text_eq (hturn : Turn text lexeme behind) : text = lexeme.text.toList ++ behind := by
  cases hturn <;> rfl

theorem Turn.fits (hturn : Turn text lexeme behind) : lexeme.Fits behind := by
  cases hturn with
  | word hword hends => exact hword
  | number hnumber hends => exact hnumber
  | symbol hsome hsigns hends => exact ⟨hsome, hsigns⟩

theorem IsNumber.ne_nil (hnumber : IsNumber text) : text ≠ [] := by
  cases hnumber <;> exact List.cons_ne_nil _ _

theorem IsNumber.isWordChar (hnumber : IsNumber (c :: more)) :
    ∀ d ∈ more, isWordChar d = true := by
  cases hnumber with
  | plain hdigit hmore => exact hmore
  | negative hdigit hmore =>
      exact List.forall_mem_cons.mpr ⟨isWordChar_of_isDigit hdigit, hmore⟩

theorem IsNumber.starts (hnumber : IsNumber (c :: more)) (behind : List Char) :
    startsNegative (c :: (more ++ behind)) = true ∨ c.isDigit = true := by
  cases hnumber with
  | plain hdigit hmore => exact .inr hdigit
  | negative hdigit hmore => exact .inl hdigit

theorem Fits.exists_cons (hfits : lexeme.Fits behind) :
    ∃ c more, lexeme.text.toList = c :: more := by
  cases lexeme with
  | word text => exact List.exists_cons_of_ne_nil hfits.nonempty
  | number text => exact List.exists_cons_of_ne_nil (IsNumber.ne_nil hfits)
  | symbol text => exact List.exists_cons_of_ne_nil hfits.1
  | quoted text => cases hfits

/-- A word or a number starts with a lexeme exactly if it is one. -/
theorem Fits.opensWord_iff (hfits : lexeme.Fits behind) :
    opensWord (lexeme.text.toList ++ behind) = true ↔ lexeme.IsWordLike := by
  obtain ⟨c, more, htext⟩ := hfits.exists_cons
  rw [htext]
  cases lexeme with
  | word text =>
      have hc : isWordChar c = true := hfits.chars c (htext ▸ List.mem_cons_self)
      simp [IsWordLike, opensWord, hc]
  | number text =>
      have hnumber : IsNumber (c :: more) := htext ▸ hfits
      rcases hnumber.starts behind with hnegative | hdigit
      · simp [IsWordLike, opensWord, hnegative]
      · simp [IsWordLike, opensWord, isWordChar_of_isDigit hdigit]
  | symbol text =>
      have hsigns : OnlySigns (c :: more) behind := htext ▸ hfits.2
      simp [IsWordLike, (onlySigns_cons_iff.mp hsigns).1]
  | quoted text => cases hfits

theorem Turn.head?_of_isWordLike (hturn : Turn text lexeme behind) (hlexeme : lexeme.IsWordLike) :
    ∀ c ∈ behind.head?, isWordChar c = false := by
  cases hturn with
  | word hword hends => exact hends
  | number hnumber hends => exact hends
  | symbol hsome hsigns hends => cases hlexeme

/-- A word or a number ends with a character of words. -/
theorem Fits.getLast?_of_isWordLike (hfits : lexeme.Fits behind) (hlexeme : lexeme.IsWordLike) :
    ∀ c ∈ lexeme.text.toList.getLast?, isWordChar c = true := by
  intro c hc
  obtain ⟨first, more, htext⟩ := hfits.exists_cons
  cases lexeme with
  | word text =>
      have hword : IsWord text := hfits
      exact hword.chars c (List.mem_of_getLast? hc)
  | number text =>
      have hnumber : IsNumber (first :: more) := htext ▸ hfits
      rw [htext] at hc
      cases more with
      | nil =>
          -- One character alone is a digit.
          cases hc
          cases hnumber with
          | plain hdigit hmore => exact isWordChar_of_isDigit hdigit
      | cons d more =>
          rw [List.getLast?_cons_cons] at hc
          exact hnumber.isWordChar c (List.mem_of_getLast? hc)
  | symbol text => cases hlexeme
  | quoted text => cases hlexeme

/-! ## Nothing else is taken -/

/-- Characters of words are taken as long as there are any. -/
theorem span_append {word : List Char} (hword : ∀ c ∈ word, isWordChar c = true)
    (hends : ∀ c ∈ behind.head?, isWordChar c = false) :
    (word ++ behind).takeWhile isWordChar = word ∧
      (word ++ behind).dropWhile isWordChar = behind := by
  rw [List.takeWhile_append_of_pos hword, List.dropWhile_append_of_pos hword]
  cases behind with
  | nil => simp
  | cons c rest =>
      have hc : ¬isWordChar c = true := by simpa using hends c rfl
      rw [List.takeWhile_cons_of_neg hc, List.dropWhile_cons_of_neg hc, List.append_nil]
      exact ⟨rfl, rfl⟩

theorem takeFirst_of_isWordLike (hfits : lexeme.Fits behind) (hlexeme : lexeme.IsWordLike)
    (htext : lexeme.text.toList = c :: more)
    (hends : ∀ d ∈ behind.head?, isWordChar d = false) :
    takeFirst c (more ++ behind) = (lexeme, behind) := by
  have hopens := hfits.opensWord_iff.mpr hlexeme
  rw [htext, List.cons_append] at hopens
  have hback : String.ofList (c :: more) = lexeme.text := by rw [← htext, String.ofList_toList]
  rw [takeFirst, if_pos hopens, firstWord]
  cases lexeme with
  | word text =>
      have hword : IsWord text := hfits
      replace htext : text.toList = c :: more := htext
      obtain ⟨hc, hmore⟩ := List.forall_mem_cons.mp (htext ▸ hword.chars)
      obtain ⟨htake, hdrop⟩ := span_append hmore hends
      have hdigit : c.isDigit = false := hword.start c (by rw [htext]; rfl)
      have hnegative : startsNegative (c :: (more ++ behind)) = false := by
        rw [startsNegative_eq_false_iff]
        rintro rfl
        cases hc
      rw [htake, hdrop, hnegative, hdigit, hback]
      rfl
  | number text =>
      have hnumber : IsNumber (c :: more) := htext ▸ hfits
      obtain ⟨htake, hdrop⟩ := span_append hnumber.isWordChar hends
      have hstarts : (startsNegative (c :: (more ++ behind)) || c.isDigit) = true :=
        Bool.or_eq_true_iff.mpr (hnumber.starts behind)
      rw [htake, hdrop, hstarts, hback]
      rfl
  | symbol text => cases hlexeme
  | quoted text => cases hlexeme

/-- A turn takes nothing else off a text. -/
theorem Turn.takeFirst_eq (hturn : Turn text lexeme behind)
    (htext : lexeme.text.toList = c :: more) : takeFirst c (more ++ behind) = (lexeme, behind) := by
  have hfits := hturn.fits
  cases hturn with
  | word hword hends => exact takeFirst_of_isWordLike hfits trivial htext hends
  | number hnumber hends => exact takeFirst_of_isWordLike hfits trivial htext hends
  | @symbol text behind hsome hsigns hends =>
      replace htext : text.toList = c :: more := htext
      rw [htext, onlySigns_cons_iff] at hsigns
      have hback : String.ofList (c :: more) = text := by rw [← htext, String.ofList_toList]
      rw [takeFirst, hsigns.1, if_neg Bool.false_ne_true, hsigns.2.spanSigns_eq hends, hback]

/-! ## Turns and pieces -/

theorem IsNumber.pieces_eq (hnumber : IsNumber text) : pieces text = [text] := by
  cases hnumber with
  | @plain digit more hdigit hmore =>
      refine pieces_of_isWordChar (List.cons_ne_nil digit more) ?_
      exact List.forall_mem_cons.mpr ⟨isWordChar_of_isDigit hdigit, hmore⟩
  | negative hdigit hmore => exact pieces_negative hdigit hmore

theorem IsNumber.ofPiece_eq (hnumber : IsNumber text) :
    ofPiece text = .number (String.ofList text) := by
  cases hnumber with
  | plain hdigit hmore => simp [ofPiece, hdigit]
  | negative hdigit hmore => simp [ofPiece, startsNegative, hdigit]

theorem pieces_onlySigns (hsome : signs ≠ []) (hsigns : OnlySigns signs behind) :
    pieces signs = [signs] := by
  induction signs with
  | nil => exact absurd rfl hsome
  | cons c rest ih =>
      obtain ⟨hc, hrest⟩ := onlySigns_cons_iff.mp hsigns
      cases rest with
      | nil => rfl
      | cons d others =>
          have hd : isWordChar d = false := hrest.chars d List.mem_cons_self
          have hword : isWordChar c = false := (opensWord_eq_false_iff.mp hc).1
          have hjoins : joins c (d :: others) = true := by
            simp [joins, hd, hword, hrest.startsNegative_eq_false]
          rw [pieces_cons, ih (List.cons_ne_nil d others) hrest, prepend, if_pos hjoins]

theorem ofPiece_onlySigns (hsome : signs ≠ []) (hsigns : OnlySigns signs behind) :
    ofPiece signs = .symbol (String.ofList signs) := by
  obtain ⟨c, more, rfl⟩ := List.exists_cons_of_ne_nil hsome
  have hc : isWordChar c = false := hsigns.chars c List.mem_cons_self
  simp [ofPiece, hsigns.startsNegative_eq_false, isDigit_eq_false hc, hc]

/-- A lexeme is a piece of one kind. -/
theorem Fits.pieces_eq (hfits : lexeme.Fits behind) :
    pieces lexeme.text.toList = [lexeme.text.toList] ∧ ofPiece lexeme.text.toList = lexeme := by
  cases lexeme with
  | word text =>
      have hword : IsWord text := hfits
      exact ⟨pieces_of_isWordChar hword.nonempty hword.chars, ofPiece_word hword⟩
  | number text =>
      have hnumber : ofPiece text.toList = .number (String.ofList text.toList) :=
        IsNumber.ofPiece_eq hfits
      rw [String.ofList_toList] at hnumber
      exact ⟨IsNumber.pieces_eq hfits, hnumber⟩
  | symbol text =>
      obtain ⟨hsome, hsigns⟩ := hfits
      have hsymbol := ofPiece_onlySigns hsome hsigns
      rw [String.ofList_toList] at hsymbol
      exact ⟨pieces_onlySigns hsome hsigns, hsymbol⟩
  | quoted text => cases hfits

/-- The first piece of a text starts as the text does. -/
theorem head?_pieces_cons {piece : List Char} (hpiece : piece ∈ (pieces (c :: rest)).head?) :
    ∃ more, piece = c :: more ∧ startsNegative piece = startsNegative (c :: rest) := by
  induction rest generalizing c piece with
  | nil =>
      cases hpiece
      exact ⟨[], rfl, rfl⟩
  | cons d rest ih =>
      obtain ⟨first, others, hpieces⟩ :=
        List.exists_cons_of_ne_nil (pieces_ne_nil (List.cons_ne_nil d rest))
      obtain ⟨more, rfl, -⟩ := ih (by rw [hpieces]; rfl)
      rw [pieces_cons, hpieces, prepend] at hpiece
      split at hpiece
      next hjoins =>
        cases hpiece
        exact ⟨d :: more, rfl, by rw [startsNegative_cons_cons, startsNegative_cons_cons]⟩
      next hjoins =>
        cases hpiece
        refine ⟨[], rfl, ?_⟩
        -- A minus sign would belong to the piece of a digit.
        rw [startsNegative_singleton, eq_comm, startsNegative_cons_cons]
        by_contra hnegative
        rw [Bool.not_eq_false, Bool.and_eq_true] at hnegative
        simp [joins, isWordChar_of_isDigit hnegative.2, hnegative] at hjoins

/-- The first piece of a text is what a turn takes off it. -/
theorem Turn.pieces_eq (hturn : Turn text lexeme behind) :
    pieces text = lexeme.text.toList :: pieces behind := by
  rw [hturn.text_eq, pieces_append, hturn.fits.pieces_eq.1, List.singleton_append]
  intro c hc piece hpiece
  cases behind with
  | nil => cases hpiece
  | cons d rest =>
      obtain ⟨more, rfl, hstarts⟩ := head?_pieces_cons hpiece
      by_cases hlexeme : lexeme.IsWordLike
      · have hlast := hturn.fits.getLast?_of_isWordLike hlexeme c hc
        have hd := hturn.head?_of_isWordLike hlexeme d rfl
        simp [joins, hd, hlast]
      · cases hturn with
        | word hword hends => exact absurd trivial hlexeme
        | number hnumber hends => exact absurd trivial hlexeme
        | symbol hsome hsigns hends =>
            obtain ⟨before, hbefore⟩ := List.getLast?_eq_some_iff.mp hc
            have hlast : isWordChar c = false := hsigns.chars c (List.mem_of_getLast? hc)
            have hopens : isWordChar d = true ∨ startsNegative (d :: rest) = true := by
              simpa [opensWord] using hends (List.cons_ne_nil d rest)
            by_cases hd : isWordChar d = true
            · have hminus : c = '-' → d.isDigit = false := by
                rintro rfl
                exact hsigns.minus before [] hbefore d rfl
              simpa [joins, hd, hlast] using hminus
            · rw [← hstarts] at hopens
              simp [joins, hd, hopens.resolve_left hd]

end Tabular.Lexeme
