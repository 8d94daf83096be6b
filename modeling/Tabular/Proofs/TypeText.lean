import Mathlib.Data.List.Forall2
import Mathlib.Data.List.TakeWhile
import Tabular.Proofs.ColumnType
import Tabular.Proofs.Trim

/-! # Texts of column types

The texts that denote column types, given without the code that reads them: a word in any
letter case or, for texts, also a word with a width in parentheses, and white space around
each of these. Every text is read as the type that it denotes, or refused if it denotes
none.
-/

namespace Tabular

namespace Text

variable {word : String} {text : List Char} {limit n : Nat}

/-- The text is the word, except that ASCII letters may be in upper case. -/
def InAnyCase (word : String) (text : List Char) : Prop :=
  List.Forall₂ (fun letter c => c = letter ∨ c = letter.toUpper) word.toList text

theorem toLower_eq_iff {c letter : Char} (hletter : letter.isLower = true) :
    c.toLower = letter ↔ c = letter ∨ c = letter.toUpper := by
  unfold Char.isLower at hletter
  simp only [Bool.and_eq_true, decide_eq_true_eq, ge_iff_le] at hletter
  have hdown : ('a'.val - 'A'.val).toNat = 32 := rfl
  have hup : ('A'.val - 'a'.val).toNat = 2 ^ 32 - 32 := rfl
  have hupper : letter.toUpper.val = letter.val + ('A'.val - 'a'.val) := by
    unfold Char.toUpper
    rw [dif_pos hletter]
  simp only [UInt32.le_iff_toNat_le] at hletter
  have hfrom : 97 ≤ letter.val.toNat := hletter.1
  have hto : letter.val.toNat ≤ 122 := hletter.2
  have hword := c.val.toNat_lt
  rw [Char.ext_iff, Char.ext_iff, Char.ext_iff, hupper]
  unfold Char.toLower
  split
  next hcapital =>
    simp only [ge_iff_le, UInt32.le_iff_toNat_le] at hcapital
    have hfrom : 65 ≤ c.val.toNat := hcapital.1
    have hto : c.val.toNat ≤ 90 := hcapital.2
    simp only [← UInt32.toNat_inj, UInt32.toNat_add, hdown, hup]
    omega
  next hcapital =>
    have hrange : ¬(65 ≤ c.val.toNat ∧ c.val.toNat ≤ 90) := by
      intro hrange
      exact hcapital
        ⟨UInt32.le_iff_toNat_le.mpr hrange.1, UInt32.le_iff_toNat_le.mpr hrange.2⟩
    simp only [← UInt32.toNat_inj, UInt32.toNat_add, hup]
    omega

/-- A text in lower case is a word of small letters exactly if it is that word in some
letter case. -/
theorem lower_eq_iff (hword : word.toList.all Char.isLower = true) :
    lower (String.ofList text) = word ↔ InAnyCase word text := by
  have hchars : lower (String.ofList text) = word ↔ text.map Char.toLower = word.toList := by
    rw [lower, ← String.toList_inj, String.toList_ofList, String.toList_ofList]
  rw [hchars, InAnyCase]
  clear hchars
  rw [List.all_eq_true] at hword
  generalize word.toList = letters at hword
  induction letters generalizing text with
  | nil => simp
  | cons letter letters ih =>
      obtain ⟨hletter, hletters⟩ := List.forall_mem_cons.mp hword
      cases text with
      | nil => simp
      | cons c text =>
          have hrest : text.map Char.toLower = letters ↔ List.Forall₂ _ letters text := ih hletters
          rw [List.map_cons, List.cons_eq_cons, List.forall₂_cons, toLower_eq_iff hletter, hrest]

/-- What holds of the letters of a word in either case holds of each of its spellings. -/
theorem InAnyCase.all {p : Char → Bool} (hspelled : InAnyCase word text)
    (hword : (word.toList.all fun letter => p letter && p letter.toUpper) = true) :
    text.all p = true := by
  rw [InAnyCase] at hspelled
  generalize word.toList = letters at hspelled hword
  induction hspelled with
  | nil => rfl
  | cons hcase hrest ih =>
      rw [List.all_cons, Bool.and_eq_true, Bool.and_eq_true] at hword
      obtain ⟨⟨hsmall, hcapital⟩, hletters⟩ := hword
      rw [List.all_cons, ih hletters, Bool.and_true]
      rcases hcase with rfl | rfl
      · exact hsmall
      · exact hcapital

/-- The text is one or more digits, perhaps behind a plus sign, and this is its value. -/
inductive Counts : List Char → Nat → Prop
  | intro {sign digits : List Char} (hsign : sign = [] ∨ sign = ['+']) (hsome : digits ≠ [])
    (hdigits : ∀ c ∈ digits, c.isDigit = true) :
    Counts (sign ++ digits) (Nat.ofDigitChars 10 digits 0)

theorem unsigned?_plus {digits : List Char} :
    unsigned? limit ('+' :: digits) = some n ↔ natural? digits = some n ∧ n < limit := by
  rw [unsigned?]
  cases natural? digits with
  | none => simp
  | some k =>
      simp only [Option.ite_none_right_eq_some, Option.some.injEq]
      constructor
      · rintro ⟨hlimit, rfl⟩
        exact ⟨rfl, hlimit⟩
      · rintro ⟨rfl, hlimit⟩
        exact ⟨hlimit, rfl⟩

/-- A number below a limit is read of the texts that count it. -/
theorem unsigned?_iff_counts : unsigned? limit text = some n ↔ Counts text n ∧ n < limit := by
  constructor
  · intro hread
    by_cases hplus : text.head? = some '+'
    · obtain ⟨digits, rfl⟩ := List.head?_eq_some_iff.mp hplus
      obtain ⟨hnatural, hlimit⟩ := unsigned?_plus.mp hread
      obtain ⟨hsome, hdigits, rfl⟩ := natural?_eq_some_iff.mp hnatural
      exact ⟨.intro (.inr rfl) hsome hdigits, hlimit⟩
    · obtain ⟨hnatural, hlimit⟩ := (unsigned?_eq_some_iff hplus).mp hread
      obtain ⟨hsome, hdigits, rfl⟩ := natural?_eq_some_iff.mp hnatural
      exact ⟨.intro (.inl rfl) hsome hdigits, hlimit⟩
  · rintro ⟨⟨rfl | rfl, hsome, hdigits⟩, hlimit⟩
    · have hplus := head?_ne_of_digits (c := '+') rfl hdigits
      exact (unsigned?_eq_some_iff hplus).mpr
        ⟨natural?_eq_some_iff.mpr ⟨hsome, hdigits, rfl⟩, hlimit⟩
    · exact unsigned?_plus.mpr ⟨natural?_eq_some_iff.mpr ⟨hsome, hdigits, rfl⟩, hlimit⟩

theorem Counts.isBlank_eq_false (hcounts : Counts text n) : ∀ c ∈ text, isBlank c = false := by
  have hplus : isBlank '+' = false := by decide
  cases hcounts with
  | intro hsign hsome hdigits =>
      intro c hc
      rcases List.mem_append.mp hc with hc | hc
      · rcases hsign with rfl | rfl
        · cases hc
        · rw [List.mem_singleton.mp hc, hplus]
      · exact isBlank_of_isDigit (hdigits c hc)

/-- White space around a text that has none is all that trimming takes off. -/
theorem trim_around {before body after : List Char} (hbefore : AllBlank before)
    (hafter : AllBlank after) (hbody : ∀ c ∈ body, isBlank c = false) :
    trim (before ++ body ++ after) = body :=
  trim_eq_iff.mpr (.intro hbefore hafter (fun c hc => hbody c (List.mem_of_mem_head? hc))
    fun c hc => hbody c (List.mem_of_getLast? hc))

end Text

namespace ColumnType

variable {text name size : List Char} {type : ColumnType}

/-- What a text without white space around it denotes. -/
inductive Denotes : List Char → ColumnType → Prop
  | int {name : List Char} (hname : Text.InAnyCase "int" name) : Denotes name .int
  | date {name : List Char} (hname : Text.InAnyCase "date" name) : Denotes name .date
  | char {name : List Char} (hname : Text.InAnyCase "char" name) : Denotes name (.char 1)
  | sized {name gap before size after : List Char} {n : Nat} (hname : Text.InAnyCase "char" name)
    (hgap : Text.AllBlank gap) (hbefore : Text.AllBlank before) (hsize : Text.Counts size n)
    (hafter : Text.AllBlank after) (hwidth : 0 < n ∧ n < widthLimit) :
    Denotes (name ++ gap ++ '(' :: (before ++ size ++ after ++ [')'])) (.char n)

/-- The words for types are without white space and parentheses. -/
theorem plain_of_inAnyCase {word : String} (hword : word = "int" ∨ word = "date" ∨ word = "char")
    (hname : Text.InAnyCase word name) : ∀ c ∈ name, Text.isBlank c = false ∧ c ≠ '(' := by
  have hplain : (name.all fun c => !Text.isBlank c && c != '(') = true := by
    rcases hword with rfl | rfl | rfl
    · exact hname.all (by decide)
    · exact hname.all (by decide)
    · exact hname.all (by decide)
  simpa only [List.all_eq_true, Bool.and_eq_true, Bool.not_eq_true', bne_iff_ne] using hplain

theorem lower_int_iff : Text.lower (String.ofList name) = "int" ↔ Text.InAnyCase "int" name :=
  Text.lower_eq_iff (by decide +kernel)

theorem lower_date_iff : Text.lower (String.ofList name) = "date" ↔ Text.InAnyCase "date" name :=
  Text.lower_eq_iff (by decide +kernel)

theorem lower_char_iff : Text.lower (String.ofList name) = "char" ↔ Text.InAnyCase "char" name :=
  Text.lower_eq_iff (by decide +kernel)

/-- A name alone denotes a type exactly if it is the word for one. -/
theorem ofParts?_name_eq_some : ofParts? name none = some type ↔
    (Text.InAnyCase "int" (Text.trim name) ∧ type = .int) ∨
      (Text.InAnyCase "date" (Text.trim name) ∧ type = .date) ∨
        Text.InAnyCase "char" (Text.trim name) ∧ type = .char 1 := by
  rw [← lower_int_iff, ← lower_date_iff, ← lower_char_iff]
  constructor
  · intro hparts
    unfold ofParts? at hparts
    split at hparts
    next hname _ =>
      cases hparts
      exact .inl ⟨hname, rfl⟩
    next hname _ =>
      cases hparts
      exact .inr (.inl ⟨hname, rfl⟩)
    next hname _ =>
      cases hparts
      exact .inr (.inr ⟨hname, rfl⟩)
    next hsize => cases hsize
    next => cases hparts
  · unfold ofParts?
    rintro (⟨hname, rfl⟩ | ⟨hname, rfl⟩ | ⟨hname, rfl⟩) <;> simp only [hname]

/-- Only a text has a size, and its size is its width. -/
theorem ofParts?_sized_eq_some : ofParts? name (some size) = some type ↔
    Text.InAnyCase "char" (Text.trim name) ∧
      ∃ n, Text.Counts (Text.trim size) n ∧ (0 < n ∧ n < widthLimit) ∧ type = .char n := by
  rw [← lower_char_iff]
  constructor
  · intro hparts
    unfold ofParts? at hparts
    split at hparts
    next hsize => cases hsize
    next hsize => cases hsize
    next hsize => cases hsize
    next hname hsize =>
      cases hsize
      split at hparts
      next n hread =>
        obtain ⟨hcounts, hlimit⟩ := Text.unsigned?_iff_counts.mp hread
        split at hparts
        next hpositive =>
          cases hparts
          exact ⟨hname, n, hcounts, ⟨hpositive, hlimit⟩, rfl⟩
        next => cases hparts
      next => cases hparts
    next => cases hparts
  · rintro ⟨hname, n, hcounts, ⟨hpositive, hlimit⟩, rfl⟩
    have hread := Text.unsigned?_iff_counts.mpr ⟨hcounts, hlimit⟩
    unfold ofParts?
    rw [hname]
    simp only [hread]
    rw [if_pos hpositive]

/-- What a text is read as denotes it, if there is no white space around the text. -/
theorem denotes_of_read? (hread : read? text = some type)
    (hhead : ∀ c ∈ text.head?, Text.isBlank c = false)
    (hlast : ∀ c ∈ text.getLast?, Text.isBlank c = false) : Denotes text type := by
  by_cases hopen : '(' ∈ text
  · obtain ⟨name, inner, rfl, hname⟩ := List.eq_append_cons_of_mem hopen
    rw [read?_of_cut hname] at hread
    split at hread
    next hclose =>
      obtain ⟨size, rfl⟩ := List.getLast?_eq_some_iff.mp hclose
      rw [List.dropLast_concat] at hread
      obtain ⟨hword, n, hcounts, hwidth, rfl⟩ := ofParts?_sized_eq_some.mp hread
      have hstart : ∀ c ∈ name.head?, Text.isBlank c = false := by
        intro c hc
        apply hhead c
        rw [List.head?_append, Option.mem_def.mp hc]
        rfl
      obtain ⟨gap, hgap, hgapped⟩ := Text.exists_trim_of_head? hstart
      obtain ⟨before, after, hbefore, hafter, hsize⟩ := Text.exists_trim size
      rw [hgapped, hsize]
      exact .sized hword hgap hbefore hcounts hafter hwidth
    next => cases hread
  · have htrim : Text.trim text = text := by
      have htrims : Text.Trims ([] ++ text ++ []) text := .intro nofun nofun hhead hlast
      rw [List.nil_append, List.append_nil] at htrims
      exact htrims.trim_eq
    rw [read?_of_notMem hopen, ofParts?_name_eq_some, htrim] at hread
    rcases hread with ⟨hword, rfl⟩ | ⟨hword, rfl⟩ | ⟨hword, rfl⟩
    · exact .int hword
    · exact .date hword
    · exact .char hword

/-- A word for a type is read as any other name. -/
theorem read?_of_inAnyCase {word : String} (hword : word = "int" ∨ word = "date" ∨ word = "char")
    (hname : Text.InAnyCase word name) :
    read? name = ofParts? name none ∧ Text.trim name = name := by
  have hplain := plain_of_inAnyCase hword hname
  refine ⟨read?_of_notMem fun hopen => (hplain '(' hopen).2 rfl, ?_⟩
  exact Text.trim_eq_self fun c hc => (hplain c hc).1

/-- A text is read as what it denotes. -/
theorem Denotes.read? (hdenotes : Denotes text type) : read? text = some type := by
  cases hdenotes with
  | int hname =>
      obtain ⟨hread, htrim⟩ := read?_of_inAnyCase (.inl rfl) hname
      rw [hread, ofParts?_name_eq_some, htrim]
      exact .inl ⟨hname, rfl⟩
  | date hname =>
      obtain ⟨hread, htrim⟩ := read?_of_inAnyCase (.inr (.inl rfl)) hname
      rw [hread, ofParts?_name_eq_some, htrim]
      exact .inr (.inl ⟨hname, rfl⟩)
  | char hname =>
      obtain ⟨hread, htrim⟩ := read?_of_inAnyCase (.inr (.inr rfl)) hname
      rw [hread, ofParts?_name_eq_some, htrim]
      exact .inr (.inr ⟨hname, rfl⟩)
  | @sized name gap before size after n hname hgap hbefore hsize hafter hwidth =>
      have hplain := plain_of_inAnyCase (.inr (.inr rfl)) hname
      have hopen : '(' ∉ name ++ gap := by
        intro hmem
        rcases List.mem_append.mp hmem with hmem | hmem
        · exact (hplain '(' hmem).2 rfl
        · exact absurd (hgap '(' hmem) (by decide)
      have htrim : Text.trim (name ++ gap) = name :=
        @Text.trim_around [] name gap nofun hgap fun c hc => (hplain c hc).1
      have hinner : Text.trim (before ++ size ++ after) = size :=
        Text.trim_around hbefore hafter hsize.isBlank_eq_false
      rw [read?_of_cut hopen, List.getLast?_concat, if_pos rfl, List.dropLast_concat,
        ofParts?_sized_eq_some, htrim, hinner]
      exact ⟨hname, n, hsize, hwidth, rfl⟩

theorem ofText_eq_ok_iff {text : String} :
    ofText text = .ok type ↔ Denotes (Text.trim text.toList) type := by
  obtain ⟨hhead, hlast⟩ := (Text.trims_trim text.toList).ends
  constructor
  · intro hread
    unfold ofText at hread
    dsimp only at hread
    split at hread
    next hfound =>
      cases hread
      exact denotes_of_read? hfound hhead hlast
    next => cases hread
  · intro hdenotes
    simp only [ofText, hdenotes.read?]

/-- A text is refused by what it is trimmed to. -/
theorem eq_invalidType_of_ofText {text : String} {e : ParseError}
    (hfails : ofText text = .error e) :
    e = .invalidType (String.ofList (Text.trim text.toList)) := by
  unfold ofText at hfails
  dsimp only at hfails
  split at hfails
  next => cases hfails
  next =>
    cases hfails
    rfl

theorem ofText_eq_error_iff {text : String} {e : ParseError} :
    ofText text = .error e ↔ (∀ type, ¬Denotes (Text.trim text.toList) type) ∧
      e = .invalidType (String.ofList (Text.trim text.toList)) := by
  constructor
  · intro hfails
    refine ⟨fun type hdenotes => ?_, eq_invalidType_of_ofText hfails⟩
    rw [ofText_eq_ok_iff.mpr hdenotes] at hfails
    cases hfails
  · rintro ⟨hnone, rfl⟩
    cases hread : ofText text with
    | ok type => exact absurd (ofText_eq_ok_iff.mp hread) (hnone type)
    | error e => rw [eq_invalidType_of_ofText hread]

/-- A text is read as the type that it denotes without the white space around it. If it
denotes none, it is refused by what is left without that white space. The types that are read
have a positive width within the limit, and each of them is read of its name. -/
theorem ofText_denotes (text : String) :
    (∀ type, ofText text = .ok type ↔ ∃ body, Text.Trims text.toList body ∧ Denotes body type) ∧
      (∀ e, ofText text = .error e ↔ ∃ body, Text.Trims text.toList body ∧
        (∀ type, ¬Denotes body type) ∧ e = .invalidType (String.ofList body)) ∧
      ∀ type, ofText text = .ok type →
        type ≠ .char 0 ∧ type.IsDenotable ∧ ofText type.name = .ok type := by
  refine ⟨fun type => ?_, fun e => ?_, fun type hread => ?_⟩
  · rw [ofText_eq_ok_iff, Text.exists_trims_iff]
  · rw [ofText_eq_error_iff, Text.exists_trims_iff (p := fun body =>
      (∀ type, ¬Denotes body type) ∧ e = .invalidType (String.ofList body))]
  · have htype := isDenotable_of_ofText hread
    refine ⟨?_, htype, ofText_name htype⟩
    rintro rfl
    exact absurd htype.positive (Nat.lt_irrefl 0)

/-- White space in all places, a plus sign, a leading zero and letters in either case. -/
theorem ofText_denotes_sized :
    ofText " cHaR\t( +012 )\n" = .ok (.char 12) ∧ (char 12).IsDenotable ∧
      ofText "Char(12)" = .ok (.char 12) ∧
      ofText " Char(4) (5)" = .error (.invalidType "Char(4) (5)") := by
  have hsized : Denotes "cHaR\t( +012 )".toList (.char 12) :=
    @Denotes.sized "cHaR".toList ['\t'] [' '] "+012".toList [' '] 12
      (.cons (.inl rfl) (.cons (.inr rfl) (.cons (.inl rfl) (.cons (.inr rfl) .nil))))
      (by decide) (by decide)
      (@Text.Counts.intro ['+'] "012".toList (.inr rfl) (by decide)
        (List.all_eq_true.mp (by decide)))
      (by decide) (by decide)
  have htrims : Text.Trims " cHaR\t( +012 )\n".toList "cHaR\t( +012 )".toList :=
    Text.trim_eq_iff.mp (by decide +kernel)
  obtain ⟨hread, -, hback⟩ := ofText_denotes " cHaR\t( +012 )\n"
  have htype := (hread (.char 12)).mpr ⟨_, htrims, hsized⟩
  obtain ⟨-, hdenotable, hname⟩ := hback _ htype
  exact ⟨htype, hdenotable, hname, by decide +kernel⟩

end ColumnType

end Tabular
