import Tabular.Cell
import Tabular.Proofs.Utf8

/-! # Reading back cells

A cell that was written from a value is read back as the normal form of the value,
whatever follows the cell. Integers are their own normal form. A text loses what does
not fit into the cell, and the zero characters at the end of what is left.
-/

namespace Tabular.Cell

/-- The value that a column of some type keeps of a given one: an integer as it is,
and of a text the longest beginning of whole characters that fits, without the zero
characters at its end. -/
inductive NormalForm : ColumnType → Value → Value → Prop
  | integer {type : ColumnType} (htype : type.isInteger = true) (n : Int64) :
    NormalForm type (.integer n) (.integer n)
  | text {width : Nat} {given : String} {kept dropped : List Char}
    (hgiven : given.toList = kept ++ dropped)
    (hfits : (Utf8.encode (String.ofList kept)).length ≤ width)
    (hlongest : ∀ next rest, dropped = next :: rest →
      width < (Utf8.encode (String.ofList (kept ++ [next]))).length) :
    NormalForm (.char width) (.text given)
      (.text (String.ofList (kept.rdropWhile fun c => c = '\x00')))

theorem readInt_writeInt {n : Int} (hlow : -0x80000000 ≤ n) (hhigh : n < 0x80000000) :
    readInt (writeInt n) = n := by
  have hbyte (k : Nat) : (UInt8.ofNat k).toNat = k % 256 := UInt8.toNat_ofNat'
  simp only [readInt, writeInt, List.foldr_cons, List.foldr_nil, hbyte, Int.bmod_def]
  omega

theorem withoutPadding_concat {bytes : Bytes} {last : UInt8} (hlast : last ≠ 0) :
    withoutPadding (bytes ++ [last]) = bytes ++ [last] :=
  List.rdropWhile_concat_neg _ _ _ (by simpa using hlast)

theorem withoutPadding_concat_zero (bytes : Bytes) :
    withoutPadding (bytes ++ [0]) = withoutPadding bytes :=
  List.rdropWhile_concat_pos _ _ _ (beq_self_eq_true _)

theorem withoutPadding_padded (width : Nat) (bytes : Bytes) :
    withoutPadding (padded width bytes) = withoutPadding bytes := by
  unfold padded
  induction width - bytes.length with
  | zero => rw [List.replicate_zero, List.append_nil]
  | succ n ih => rw [List.replicate_succ', ← List.append_assoc, withoutPadding_concat_zero, ih]

/-- Without the zero bytes at its end, an encoded text is that of its characters up
to the last one that is not zero. -/
theorem withoutPadding_encode (chars : List Char) :
    withoutPadding (Utf8.encode (String.ofList chars)) =
      Utf8.encode (String.ofList (chars.rdropWhile fun c => c = '\x00')) := by
  -- The zero bytes are dropped from the end, so that the last character comes first.
  induction chars using List.reverseRecOn with
  | nil => rfl
  | append_singleton init c ih =>
      rw [Utf8.encode_ofList, List.flatMap_append, List.flatMap_singleton]
      by_cases hzero : c = '\x00'
      · subst hzero
        rw [List.rdropWhile_concat_pos _ _ _ (by simp), ← ih, Utf8.encode_ofList]
        exact withoutPadding_concat_zero _
      · rw [List.rdropWhile_concat_neg _ _ _ (by simpa using hzero), Utf8.encode_ofList,
          List.flatMap_append, List.flatMap_singleton]
        obtain ⟨first, last, hencode, hlast⟩ := Utf8.exists_encodeChar_concat hzero
        rw [hencode, ← List.append_assoc]
        exact withoutPadding_concat hlast

theorem length_encode_cons (c : Char) (rest : List Char) :
    (Utf8.encode (String.ofList (c :: rest))).length =
      c.utf8Size + (Utf8.encode (String.ofList rest)).length := by
  rw [Utf8.encode_ofList, Utf8.encode_ofList, List.flatMap_cons, List.length_append,
    String.length_utf8EncodeChar]

/-- What fits is a beginning of the text, it does fit, and it would not with one more
character. -/
theorem fitting_longest (room : Nat) (chars : List Char) :
    ∃ dropped, chars = fitting room chars ++ dropped ∧
      (Utf8.encode (String.ofList (fitting room chars))).length ≤ room ∧
      ∀ next rest, dropped = next :: rest →
        room < (Utf8.encode (String.ofList (fitting room chars ++ [next]))).length := by
  induction chars generalizing room with
  | nil => exact ⟨[], rfl, Nat.zero_le _, nofun⟩
  | cons c rest ih =>
      by_cases hroom : c.utf8Size ≤ room
      · obtain ⟨dropped, hrest, hfits, hlongest⟩ := ih (room - c.utf8Size)
        rw [fitting, if_pos hroom]
        refine ⟨dropped, congrArg (c :: ·) hrest, ?_, ?_⟩
        · rw [length_encode_cons]
          omega
        · intro next others hdropped
          have hnext := hlongest next others hdropped
          rw [List.cons_append, length_encode_cons]
          omega
      · -- Nothing is kept: the first character alone is too long.
        rw [fitting, if_neg hroom]
        refine ⟨c :: rest, rfl, Nat.zero_le _, ?_⟩
        rintro next others ⟨rfl, rfl⟩
        rw [List.nil_append, length_encode_cons]
        omega

theorem length_padded {width : Nat} {bytes : Bytes} (hfits : bytes.length ≤ width) :
    (padded width bytes).length = width := by
  rw [padded, List.length_append, List.length_replicate]
  omega

theorem decode_text {width : Nat} {chars : List Char}
    (hfits : (Utf8.encode (String.ofList chars)).length ≤ width) (rest : Bytes) :
    decode (.char width) (padded width (Utf8.encode (String.ofList chars)) ++ rest) =
      .ok (.text (String.ofList (chars.rdropWhile fun c => c = '\x00'))) := by
  have hlength := length_padded hfits
  have hcell : (padded width (Utf8.encode (String.ofList chars)) ++ rest).take
      (ColumnType.char width).width = padded width (Utf8.encode (String.ofList chars)) :=
    List.take_left' hlength
  have hlong : ¬ (padded width (Utf8.encode (String.ofList chars)) ++ rest).length <
      (ColumnType.char width).width := by
    rw [List.length_append, hlength]
    exact Nat.not_lt.mpr (Nat.le_add_right ..)
  rw [decode, if_neg hlong]
  simp only [hcell, ColumnType.isInteger, Bool.false_eq_true, if_false]
  rw [withoutPadding_padded, withoutPadding_encode, Utf8.decode_encode]

theorem width_of_isInteger {type : ColumnType} (htype : type.isInteger = true) :
    type.width = 4 := by
  cases type <;> first | rfl | cases htype

theorem decode_integer {type : ColumnType} (htype : type.isInteger = true) {n : Int64}
    (hlow : -0x80000000 ≤ n.toInt) (hhigh : n.toInt < 0x80000000) (rest : Bytes) :
    decode type (writeInt n.toInt ++ rest) = .ok (.integer n) := by
  have hwidth := width_of_isInteger htype
  have hlong : ¬ (writeInt n.toInt ++ rest).length < type.width := by
    rw [hwidth, List.length_append]
    exact Nat.not_lt.mpr (Nat.le_add_right ..)
  have hcell : (writeInt n.toInt ++ rest).take type.width = writeInt n.toInt := by
    rw [hwidth]
    rfl
  rw [decode, if_neg hlong]
  simp only [hcell, htype, if_true]
  rw [readInt_writeInt hlow hhigh, Int64.ofInt_toInt]

theorem encode_integer {type : ColumnType} (htype : type.isInteger = true) (column : String)
    (n : Int64) :
    encode column type (.integer n) =
      if -0x80000000 ≤ n.toInt ∧ n.toInt < 0x80000000 then .ok (writeInt n.toInt)
      else .error (.valueOutOfRange n type) := by
  cases type with
  | int => rfl
  | date => rfl
  | char width => cases htype

/-- Only integers within the range of a cell and texts are written, each to columns of
its kind. -/
theorem encode_eq_ok {column : String} {type : ColumnType} {given : Value} {cell : Bytes}
    (hencode : encode column type given = .ok cell) :
    (∃ n : Int64, type.isInteger = true ∧ given = .integer n ∧
      (-0x80000000 ≤ n.toInt ∧ n.toInt < 0x80000000) ∧ cell = writeInt n.toInt) ∨
    ∃ width s, type = .char width ∧ given = .text s ∧
      cell = padded width (Utf8.encode (String.ofList (fitting width s.toList))) := by
  unfold encode at hencode
  split at hencode
  next width s =>
    cases hencode
    exact .inr ⟨width, s, rfl, rfl, rfl⟩
  next => cases hencode
  next n hchar =>
    split at hencode
    next hbounds =>
      cases hencode
      refine .inl ⟨n, ?_, rfl, hbounds, rfl⟩
      cases type with
      | int => rfl
      | date => rfl
      | char width => exact absurd rfl (hchar width)
    next => cases hencode
  next => cases hencode

/-- A written cell is as wide as its type says, and it is read back as the normal
form of the value it was written from. -/
theorem decode_of_encode {column : String} {type : ColumnType} {given : Value} {cell : Bytes}
    (hencode : encode column type given = .ok cell) :
    cell.length = type.width ∧
      ∀ rest, ∃ stored, decode type (cell ++ rest) = .ok stored ∧ NormalForm type given stored := by
  rcases encode_eq_ok hencode with ⟨n, htype, rfl, ⟨hlow, hhigh⟩, rfl⟩ | ⟨width, s, rfl, rfl, rfl⟩
  · refine ⟨?_, fun rest => ⟨_, decode_integer htype hlow hhigh rest, .integer htype n⟩⟩
    rw [width_of_isInteger htype]
    rfl
  · obtain ⟨dropped, hgiven, hfits, hlongest⟩ := fitting_longest width s.toList
    refine ⟨length_padded hfits, fun rest => ⟨_, decode_text hfits rest, ?_⟩⟩
    exact .text hgiven hfits hlongest

end Tabular.Cell
