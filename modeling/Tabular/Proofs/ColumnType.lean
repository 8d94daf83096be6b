import Tabular.ColumnType
import Tabular.Proofs.Decimal
import Tabular.Proofs.Place

/-! # Reading back column types

The types that texts can denote are those whose width is positive and below the limit, and
each of them is denoted by its own name.
-/

namespace Tabular

namespace Text

/-- No ASCII digit is white space. -/
theorem isBlank_of_isDigit {c : Char} (hc : c.isDigit = true) : isBlank c = false := by
  simp only [Char.isDigit, Bool.and_eq_true, decide_eq_true_eq, ge_iff_le, UInt32.le_iff_toNat_le]
    at hc
  have hlow : 48 ≤ c.toNat := hc.1
  have hhigh : c.toNat ≤ 57 := hc.2
  simp only [isBlank, Range.anyHas, blankRanges, Range.has, List.any_cons, List.any_nil,
    Bool.or_eq_false_iff, Bool.and_eq_false_iff, decide_eq_false_iff_not, and_true]
  omega

theorem dropWhile_isBlank {text : List Char} (htext : ∀ c ∈ text, isBlank c = false) :
    text.dropWhile isBlank = text := by
  cases text with
  | nil => rfl
  | cons c rest => exact List.dropWhile_cons_of_neg (by simp [htext c List.mem_cons_self])

/-- A text without white space stays as it is when white space is cut off. -/
theorem trim_eq_self {text : List Char} (htext : ∀ c ∈ text, isBlank c = false) :
    trim text = text := by
  have hreverse : ∀ c ∈ text.reverse, isBlank c = false :=
    fun c hc => htext c (List.mem_reverse.mp hc)
  rw [trim, trimStart, dropWhile_isBlank htext, trimEnd, dropWhile_isBlank hreverse,
    List.reverse_reverse]

theorem trim_ofNat (n : Nat) : trim (ofNat n).toList = (ofNat n).toList :=
  trim_eq_self fun _ hc => isBlank_of_isDigit (isDigit_of_mem_ofNat hc)

theorem lt_of_unsigned? {limit n : Nat} {cs : List Char} (hread : unsigned? limit cs = some n) :
    n < limit := by
  unfold unsigned? at hread
  dsimp only at hread
  split at hread
  · split at hread
    next hlt => cases hread; exact hlt
    next => cases hread
  · cases hread

end Text

namespace ColumnType

/-- The type has cells of at least one byte, and their width is a 32-bit number. -/
structure IsDenotable (type : ColumnType) : Prop where
  positive : 0 < type.width
  limited : type.width < widthLimit

instance (type : ColumnType) : Decidable type.IsDenotable :=
  decidable_of_iff (0 < type.width ∧ type.width < widthLimit)
    ⟨fun ⟨hpositive, hlimited⟩ => ⟨hpositive, hlimited⟩,
      fun htype => ⟨htype.positive, htype.limited⟩⟩

theorem isDenotable_of_ofParts? {name : List Char} {size : Option (List Char)} {type : ColumnType}
    (hparts : ofParts? name size = some type) : type.IsDenotable := by
  unfold ofParts? at hparts
  split at hparts
  case h_1 => cases hparts; decide
  case h_2 => cases hparts; decide
  case h_3 => cases hparts; decide
  case h_4 =>
    split at hparts
    next n hsize =>
      split at hparts
      next hpositive =>
        cases hparts
        exact ⟨hpositive, Text.lt_of_unsigned? hsize⟩
      next => cases hparts
    next => cases hparts
  case h_5 => cases hparts

theorem read?_of_notMem {text : List Char} (hnone : '(' ∉ text) :
    read? text = ofParts? text none := by
  simp only [read?, Text.find?_eq_none hnone]

/-- Where the parentheses of a sized type stand, and what is cut off at these places. -/
theorem slices_of_parentheses {name : List Char} (hname : '(' ∉ name) (size : List Char) :
    Text.find? '(' (name ++ '(' :: (size ++ [')'])) = some (Text.byteLength name) ∧
      Text.rfind? ')' (name ++ '(' :: (size ++ [')'])) =
        some (Text.byteLength name + 1 + Text.byteLength size) ∧
      Text.byteLength (name ++ '(' :: (size ++ [')'])) =
        Text.byteLength name + 1 + Text.byteLength size + 1 ∧
      Text.slice? 0 (Text.byteLength name) (name ++ '(' :: (size ++ [')'])) = some name ∧
      Text.slice? (Text.byteLength name + 1) (Text.byteLength name + 1 + Text.byteLength size)
        (name ++ '(' :: (size ++ [')'])) = some size := by
  have hopen : Text.byteLength (name ++ ['(']) = Text.byteLength name + 1 :=
    Text.byteLength_append name ['(']
  have hclose : Text.byteLength (name ++ '(' :: size) =
      Text.byteLength name + 1 + Text.byteLength size := by
    rw [← hopen, ← Text.byteLength_append, List.append_assoc, List.singleton_append]
  have htext : name ++ '(' :: (size ++ [')']) = name ++ '(' :: size ++ [')'] := by simp
  have hsplit : name ++ '(' :: (size ++ [')']) = name ++ ['('] ++ size ++ [')'] := by simp
  refine ⟨Text.find?_append_cons hname _, ?_, ?_, ?_, ?_⟩
  · rw [htext, ← hclose]
    exact Text.rfind?_append_cons _ List.not_mem_nil
  · rw [htext, Text.byteLength_append, hclose]
    rfl
  · have hslice := Text.slice?_append [] name ('(' :: (size ++ [')']))
    simpa [Text.byteLength] using hslice
  · rw [hsplit, ← hopen]
    exact Text.slice?_append (name ++ ['(']) size [')']

theorem exists_size {name inner : List Char} (hlast : (name ++ '(' :: inner).getLast? = some ')') :
    ∃ size, inner = size ++ [')'] := by
  rcases List.eq_nil_or_concat' inner with rfl | ⟨size, c, rfl⟩
  · rw [List.getLast?_concat] at hlast
    cases hlast
  · rw [← List.cons_append, ← List.append_assoc, List.getLast?_concat] at hlast
    rw [Option.some.inj hlast]
    exact ⟨size, rfl⟩

/-- A text is cut at its first opening parenthesis. -/
theorem read?_of_cut {name : List Char} (hname : '(' ∉ name) (inner : List Char) :
    read? (name ++ '(' :: inner) =
      if inner.getLast? = some ')' then ofParts? name (some inner.dropLast) else none := by
  split
  next hlast =>
    obtain ⟨size, rfl⟩ := List.getLast?_eq_some_iff.mp hlast
    obtain ⟨hstart, hstop, hlength, hbefore, hbetween⟩ := slices_of_parentheses hname size
    rw [read?, hstart, hstop, hlength, List.dropLast_concat]
    dsimp only
    rw [if_pos (by omega), hbefore, hbetween]
    rfl
  next hlast =>
    rw [read?, Text.find?_append_cons hname]
    dsimp only
    split
    next => rfl
    next stop hstop =>
      rw [if_neg]
      rintro ⟨-, hend⟩
      obtain ⟨size, rfl⟩ := exists_size (Text.getLast?_of_rfind? (by rfl) hstop hend)
      exact hlast List.getLast?_concat

/-- Whenever a text is cut in this way, its slices are there. -/
theorem exists_slices {text : List Char} {start stop : Nat} (hstart : Text.find? '(' text = some start)
    (hstop : Text.rfind? ')' text = some stop) (hend : stop = Text.byteLength text - 1) :
    ∃ name size, text = name ++ '(' :: (size ++ [')']) ∧ Text.slice? 0 start text = some name ∧
      Text.slice? (start + 1) stop text = some size := by
  obtain ⟨name, inner, rfl, hname, -⟩ := Text.exists_of_find? hstart
  obtain ⟨size, rfl⟩ := exists_size (Text.getLast?_of_rfind? (by rfl) hstop hend)
  obtain ⟨hopen, hclose, -, hbefore, hbetween⟩ := slices_of_parentheses hname size
  cases hopen.symm.trans hstart
  cases hclose.symm.trans hstop
  exact ⟨name, size, rfl, hbefore, hbetween⟩

theorem isDenotable_of_read? {text : List Char} {type : ColumnType} (hread : read? text = some type) :
    type.IsDenotable := by
  by_cases hopen : '(' ∈ text
  · obtain ⟨name, inner, rfl, hname⟩ := List.eq_append_cons_of_mem hopen
    rw [read?_of_cut hname] at hread
    split at hread
    next => exact isDenotable_of_ofParts? hread
    next => cases hread
  · rw [read?_of_notMem hopen] at hread
    exact isDenotable_of_ofParts? hread

theorem isDenotable_of_ofText {text : String} {type : ColumnType} (htext : ofText text = .ok type) :
    type.IsDenotable := by
  unfold ofText at htext
  dsimp only at htext
  split at htext
  next hread =>
    cases htext
    exact isDenotable_of_read? hread
  next => cases htext

theorem toList_name_char (n : Nat) :
    (char n).name.toList = "Char".toList ++ '(' :: ((Text.ofNat n).toList ++ [')']) := by
  simp [name]

/-- The name of a type of texts is cut at its parentheses into `Char` and the width. -/
theorem read?_name_char (n : Nat) :
    read? (char n).name.toList = ofParts? "Char".toList (some (Text.ofNat n).toList) := by
  rw [toList_name_char, read?_of_cut (by decide), List.getLast?_concat, if_pos rfl,
    List.dropLast_concat]

theorem ofParts?_char {n : Nat} (htype : (char n).IsDenotable) :
    ofParts? "Char".toList (some (Text.ofNat n).toList) = some (char n) := by
  have hname : Text.lower (String.ofList (Text.trim "Char".toList)) = "char" := by decide
  have hsize : Text.unsigned? widthLimit (Text.trim (Text.ofNat n).toList) = some n := by
    rw [Text.trim_ofNat]
    exact Text.unsigned?_ofNat htype.limited
  have hpositive : 0 < n := htype.positive
  unfold ofParts?
  rw [hname]
  simp only [hsize]
  rw [if_pos hpositive]

theorem isBlank_of_mem_name_char {n : Nat} {c : Char} (hc : c ∈ (char n).name.toList) :
    Text.isBlank c = false := by
  have hnone : "Char()".toList.any Text.isBlank = false := by decide
  have hletters : ∀ other ∈ "Char()".toList, Text.isBlank other = false := by
    simpa using List.any_eq_false.mp hnone
  simp only [toList_name_char, List.mem_append, List.mem_cons, List.not_mem_nil, or_false] at hc
  rcases hc with hc | rfl | hc | rfl
  · exact hletters c (List.mem_append_left ['(', ')'] hc)
  · exact hletters '(' (by decide)
  · exact Text.isBlank_of_isDigit (Text.isDigit_of_mem_ofNat hc)
  · exact hletters ')' (by decide)

/-- A type is denoted by its name, provided there is any text that denotes it. -/
theorem ofText_name {type : ColumnType} (htype : type.IsDenotable) :
    ofText type.name = .ok type := by
  cases type with
  | int => rfl
  | date => rfl
  | char n =>
      have htrim : Text.trim (char n).name.toList = (char n).name.toList :=
        Text.trim_eq_self fun _ hc => isBlank_of_mem_name_char hc
      rw [ofText, htrim, read?_name_char, ofParts?_char htype]

/-- The types that texts denote are denoted by their names. -/
theorem exists_ofText_iff {type : ColumnType} :
    (∃ text, ofText text = .ok type) ↔ type.IsDenotable := by
  constructor
  · rintro ⟨text, htext⟩
    exact isDenotable_of_ofText htext
  · intro htype
    exact ⟨type.name, ofText_name htype⟩

end ColumnType

end Tabular
