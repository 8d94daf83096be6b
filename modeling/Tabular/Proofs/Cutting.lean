import Mathlib.Data.List.Chain
import Mathlib.Data.List.Forall2
import Tabular.Proofs.Lexeme

/-! # Cutting tokens into lexemes

An unquoted token is cut turn by turn until nothing is left of it. The lexemes make up the text of
the token, each is of its kind, and none could go on with the one behind it. There is no other way
to cut the token like this.
-/

namespace Tabular.Lexeme

variable {text behind rest : List Char} {lexemes : List Lexeme} {lexeme : Lexeme}

/-- The first of two lexemes could not go on with the second. -/
structure Apart (first next : Lexeme) : Prop where
  word : first.IsWordLike → ∀ text, next ≠ .word text
  number : first.IsWordLike → ∀ text, next = .number text →
    ∀ c ∈ text.toList.head?, c.isDigit = false
  symbol : ∀ text, first = .symbol text → ∀ other, next ≠ .symbol other

/-- The characters of lexemes, one behind the other. -/
def joined (lexemes : List Lexeme) : List Char :=
  lexemes.flatMap fun lexeme => lexeme.text.toList

/-- The lexemes make up a text, each fits in its place, and neighbours are apart. -/
structure Covers (text : List Char) (lexemes : List Lexeme) : Prop where
  joined : joined lexemes = text
  fits : ∀ before lexeme after, lexemes = before ++ lexeme :: after →
    lexeme.Fits (Lexeme.joined after)
  apart : lexemes.IsChain Apart

/-- The lexemes of a token. A quoted token is one of its own. -/
inductive Cuts : Token → List Lexeme → Prop
  | quoted (text : String) : Cuts ⟨text, true⟩ [.quoted text]
  | unquoted {text : String} {lexemes : List Lexeme} (hcovers : Covers text.toList lexemes) :
    Cuts ⟨text, false⟩ lexemes

theorem joined_cons (lexeme : Lexeme) (lexemes : List Lexeme) :
    joined (lexeme :: lexemes) = lexeme.text.toList ++ joined lexemes :=
  List.flatMap_cons

theorem covers_nil : Covers [] [] where
  joined := rfl
  fits before lexeme after hnil := by simp at hnil
  apart := .nil

theorem covers_cons_iff : Covers text (lexeme :: lexemes) ↔
    ∃ behind, text = lexeme.text.toList ++ behind ∧ lexeme.Fits behind ∧
      (∀ next ∈ lexemes.head?, Apart lexeme next) ∧ Covers behind lexemes := by
  constructor
  · intro hcovers
    obtain ⟨hnext, hapart⟩ := List.isChain_cons.mp hcovers.apart
    refine ⟨joined lexemes, ?_, hcovers.fits [] lexeme lexemes rfl, hnext, rfl, ?_, hapart⟩
    · rw [← hcovers.joined, joined_cons]
    · rintro before other after rfl
      exact hcovers.fits (lexeme :: before) other after rfl
  · rintro ⟨behind, rfl, hfits, hnext, hcovers⟩
    refine ⟨by rw [joined_cons, hcovers.joined], ?_, List.isChain_cons.mpr ⟨hnext, hcovers.apart⟩⟩
    intro before other after hsplit
    cases before with
    | nil =>
        cases hsplit
        rwa [hcovers.joined]
    | cons first before =>
        cases hsplit
        exact hcovers.fits before other after rfl

/-- What may be right behind a word or a number does not start with a character of words. -/
theorem Fits.head?_of_apart {next : Lexeme} (hfits : next.Fits behind) (hapart : Apart lexeme next)
    (hlexeme : lexeme.IsWordLike) :
    ∀ c ∈ (next.text.toList ++ behind).head?, isWordChar c = false := by
  obtain ⟨c, more, htext⟩ := hfits.exists_cons
  rw [htext, List.cons_append, List.head?_cons]
  rintro _ ⟨⟩
  cases next with
  | word text => exact absurd rfl (hapart.word hlexeme text)
  | number text =>
      have hnumber : IsNumber (c :: more) := htext ▸ hfits
      cases hnumber with
      | plain hdigit hmore =>
          have hhead : c ∈ text.toList.head? := by
            rw [show text.toList = c :: more from htext]
            rfl
          rw [hapart.number hlexeme text rfl c hhead] at hdigit
          cases hdigit
      | negative hdigit hmore => rfl
  | symbol text => exact hfits.2.chars c (htext ▸ List.mem_cons_self)
  | quoted text => cases hfits

/-- Of two turns the second does not go on with the lexeme of the first. -/
theorem Turn.apart {next : Lexeme} (hturn : Turn text lexeme behind)
    (hnext : Turn behind next rest) : Apart lexeme next := by
  obtain ⟨c, more, htext⟩ := hnext.fits.exists_cons
  have hhead : behind.head? = some c := by rw [hnext.text_eq, htext]; rfl
  refine ⟨?_, ?_, ?_⟩
  · rintro hlexeme word rfl
    have hword : IsWord word := hnext.fits
    have hc : isWordChar c = true := hword.chars c (htext ▸ List.mem_cons_self)
    rw [hturn.head?_of_isWordLike hlexeme c hhead] at hc
    cases hc
  · rintro hlexeme number rfl d hd
    have hsame : c = d := by
      rw [show number.toList = c :: more from htext] at hd
      exact Option.some.inj hd
    by_contra hdigit
    have hc := isWordChar_of_isDigit (by simpa [hsame] using hdigit : c.isDigit = true)
    rw [hturn.head?_of_isWordLike hlexeme c hhead] at hc
    cases hc
  · rintro signs rfl other rfl
    cases hturn with
    | symbol hsome hsigns hends =>
        have hopens := hends (by rintro rfl; cases hhead)
        rw [hnext.text_eq, hnext.fits.opensWord_iff] at hopens
        cases hopens

theorem covers_scan (text : List Char) : Covers text (scan text) := by
  induction text using scan.induct with
  | case1 =>
      rw [scan]
      exact covers_nil
  | case2 c rest ih =>
      have hturn := takeFirst_turn c rest
      rw [scan, covers_cons_iff]
      refine ⟨(takeFirst c rest).2, hturn.text_eq, hturn.fits, ?_, ih⟩
      intro next hnext
      cases hleft : (takeFirst c rest).2 with
      | nil =>
          rw [hleft, scan] at hnext
          cases hnext
      | cons d others =>
          rw [hleft] at hturn
          rw [hleft, scan] at hnext
          cases hnext
          exact hturn.apart (takeFirst_turn d others)

/-- The first of the lexemes that cover a text is what a turn takes off it. -/
theorem Covers.turn (hcovers : Covers text (lexeme :: lexemes)) :
    ∃ behind, Turn text lexeme behind ∧ Covers behind lexemes := by
  obtain ⟨behind, rfl, hfits, hnext, hbehind⟩ := covers_cons_iff.mp hcovers
  refine ⟨behind, ?_, hbehind⟩
  have hends : lexeme.IsWordLike → ∀ c ∈ behind.head?, isWordChar c = false := by
    intro hlexeme
    cases lexemes with
    | nil =>
        rw [← hbehind.joined]
        exact nofun
    | cons next others =>
        obtain ⟨rest, rfl, hfits, -⟩ := covers_cons_iff.mp hbehind
        exact hfits.head?_of_apart (hnext next rfl) hlexeme
  cases lexeme with
  | word text => exact .word hfits (hends trivial)
  | number text => exact .number hfits (hends trivial)
  | symbol text =>
      refine .symbol hfits.1 hfits.2 fun hsome => ?_
      cases lexemes with
      | nil => exact absurd hbehind.joined.symm hsome
      | cons next others =>
          obtain ⟨rest, rfl, hfits, -⟩ := covers_cons_iff.mp hbehind
          rw [hfits.opensWord_iff]
          cases next with
          | word other => trivial
          | number other => trivial
          | symbol other => exact absurd rfl ((hnext _ rfl).symbol text rfl other)
          | quoted other => cases hfits
  | quoted text => cases hfits

theorem Covers.eq_scan (hcovers : Covers text lexemes) : lexemes = scan text := by
  induction lexemes generalizing text with
  | nil =>
      rw [← hcovers.joined]
      exact scan.eq_1.symm
  | cons lexeme lexemes ih =>
      obtain ⟨behind, hturn, hbehind⟩ := hcovers.turn
      obtain ⟨c, more, htext⟩ := hturn.fits.exists_cons
      have hcons : text = c :: (more ++ behind) := by rw [hturn.text_eq, htext, List.cons_append]
      subst hcons
      rw [scan, hturn.takeFirst_eq htext, ih hbehind]

/-- A token has the lexemes that it can be cut into. -/
theorem ofToken_eq_iff {token : Token} : ofToken token = lexemes ↔ Cuts token lexemes := by
  obtain ⟨text, quoted⟩ := token
  cases quoted with
  | true =>
      constructor
      · rintro rfl
        exact .quoted text
      · rintro ⟨⟩
        rfl
  | false =>
      rw [ofToken_eq_scan rfl]
      constructor
      · rintro rfl
        exact .unquoted (covers_scan text.toList)
      · rintro (_ | hcovers)
        exact hcovers.eq_scan.symm

theorem text_ne_empty_of_mem_scan (hlexeme : lexeme ∈ scan text) : lexeme.text ≠ "" := by
  obtain ⟨before, after, hsplit⟩ := List.append_of_mem hlexeme
  obtain ⟨c, more, htext⟩ := ((covers_scan text).fits before lexeme after hsplit).exists_cons
  intro hempty
  rw [hempty] at htext
  cases htext

/-- Each lexeme is cut out between two indexes of its text. The first of them is where the lexemes
before it end, the second is greater and at most the length of the text. -/
theorem exists_indexes_of_scan {before after : List Lexeme}
    (hscan : scan text = before ++ lexeme :: after) :
    ∃ start stop, start = (joined before).length ∧ start < stop ∧ stop ≤ text.length ∧
      lexeme.text.toList = text.extract start stop := by
  have hjoined := (covers_scan text).joined
  rw [hscan, joined, List.flatMap_append, ← joined, ← joined, joined_cons] at hjoined
  have hlength := congrArg List.length hjoined
  rw [List.length_append, List.length_append] at hlength
  have hsome : 0 < lexeme.text.toList.length := by
    rw [List.length_pos_iff, ne_eq, String.toList_eq_nil_iff]
    exact text_ne_empty_of_mem_scan (hscan ▸ List.mem_append_right before List.mem_cons_self)
  refine ⟨_, (joined before).length + lexeme.text.toList.length, rfl, by omega, by omega, ?_⟩
  rw [List.extract_eq_take_drop, ← hjoined, List.drop_left, Nat.add_sub_cancel_left,
    List.take_left]

/-- The lexemes of tokens are those of one token after another. Each token has the only ones
that it can be cut into: a quoted token is a lexeme as it is, and those of any other token are
not empty, make up its text, fit in their places and keep apart. Such a token is scanned from left
to right, and each turn takes one character of it or more. -/
theorem ofTokens_cuts (tokens : List Token) :
    (∀ lexemes, ofTokens tokens = lexemes ↔
      ∃ parts, List.Forall₂ Cuts tokens parts ∧ parts.flatten = lexemes) ∧
    (∀ token ∈ tokens, token.quoted = false → ofToken token = scan token.text.toList ∧
      ∀ lexeme ∈ ofToken token, lexeme.text ≠ "") ∧
    scan [] = [] ∧
    ∀ c rest, scan (c :: rest) = (takeFirst c rest).1 :: scan (takeFirst c rest).2 ∧
      (takeFirst c rest).1.text.toList ++ (takeFirst c rest).2 = c :: rest ∧
      (takeFirst c rest).2.length < (c :: rest).length := by
  refine ⟨fun lexemes => ?_, fun token _ hquoted => ?_, scan.eq_1, fun c rest => ⟨?_, ?_, ?_⟩⟩
  · have hparts : ∀ parts, List.Forall₂ Cuts tokens parts ↔ tokens.map ofToken = parts := by
      intro parts
      rw [← List.forall₂_eq_eq_eq, List.forall₂_map_left_iff]
      simp only [ofToken_eq_iff]
    simp only [hparts, exists_eq_left']
    rfl
  · rw [ofToken_eq_scan hquoted]
    exact ⟨rfl, fun lexeme => text_ne_empty_of_mem_scan⟩
  · exact scan.eq_2 c rest
  · exact (takeFirst_turn c rest).text_eq.symm
  · exact length_takeFirst_lt c rest

/-- Signs end before a negative number, and only the last of several minus signs belongs to it.
A number goes on with any characters of words. -/
theorem ofTokens_cuts_signs :
    ofTokens [⟨"a-1-", false⟩, ⟨"--1", false⟩, ⟨"x<=-2y.z", false⟩, ⟨"--1", true⟩] =
        [.word "a", .number "-1", .symbol "-", .symbol "-", .number "-1", .word "x", .symbol "<=",
          .number "-2y.z", .quoted "--1"] ∧
      scan "x<=-2y.z".toList = [.word "x", .symbol "<=", .number "-2y.z"] := by
  obtain ⟨-, hscan, -⟩ :=
    ofTokens_cuts [⟨"a-1-", false⟩, ⟨"--1", false⟩, ⟨"x<=-2y.z", false⟩, ⟨"--1", true⟩]
  refine ⟨by decide +kernel, ?_⟩
  rw [← (hscan ⟨"x<=-2y.z", false⟩ (by simp) rfl).1]
  decide +kernel

end Tabular.Lexeme
