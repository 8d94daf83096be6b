import Tabular.Condition
import Tabular.Proofs.CodePoints
import Tabular.Proofs.Inverse

/-! # Cells in the order of their values

Values that are read of two cells of a column compare as the cells do: texts byte by byte, the
padding included, and numbers as signed 32-bit words. No two cells hold the same value, so a value
equals another one only if it was read of the same bytes.
-/

namespace Tabular.Cell

/-! ## Padding -/

theorem withoutPadding_cons (b : UInt8) (rest : Bytes) :
    withoutPadding (b :: rest) =
      if withoutPadding rest = [] ∧ b = 0 then [] else b :: withoutPadding rest := by
  simp only [withoutPadding, List.reverse_cons, List.dropWhile_append]
  by_cases hrest : (List.dropWhile (· == 0) rest.reverse) = []
  · by_cases hb : b = 0 <;> simp [hrest, hb]
  · simp [hrest]

/-- A zero byte with nothing behind it comes before anything that is not padding. -/
theorem compare_zero_nil {b : UInt8} {bytes : Bytes} (hmore : ¬(bytes = [] ∧ b = 0)) :
    (compare 0 b).then (compare [] bytes) = .lt := by
  by_cases hb : b = 0
  · cases bytes with
    | nil => exact absurd ⟨rfl, hb⟩ hmore
    | cons first rest =>
        rw [hb, Std.ReflOrd.compare_self, List.compare_nil_cons]
        rfl
  · have hpos : (0 : UInt8) < b := UInt8.pos_iff_ne_zero.mpr hb
    rw [Std.compare_eq_lt.mpr hpos]
    rfl

/-- The zero bytes at the end make no difference to the order of cells of one width. -/
theorem compare_withoutPadding {cell other : Bytes} (hlength : cell.length = other.length) :
    compare (withoutPadding cell) (withoutPadding other) = compare cell other := by
  induction cell generalizing other with
  | nil =>
      rw [List.eq_nil_of_length_eq_zero hlength.symm]
      rfl
  | cons b rest ih =>
      obtain ⟨b', rest', rfl⟩ := List.exists_cons_of_length_eq_add_one hlength.symm
      rw [withoutPadding_cons, withoutPadding_cons, List.compare_cons_cons,
        ← ih (Nat.succ.inj hlength)]
      generalize withoutPadding rest = kept
      generalize withoutPadding rest' = kept'
      split
      next hnone =>
        obtain ⟨rfl, rfl⟩ := hnone
        split
        next hnone' =>
          obtain ⟨rfl, rfl⟩ := hnone'
          rw [Std.ReflOrd.compare_self]
          rfl
        next hmore => rw [compare_zero_nil hmore, List.compare_nil_cons]
      next hmore =>
        split
        next hnone' =>
          obtain ⟨rfl, rfl⟩ := hnone'
          rw [Std.OrientedOrd.eq_swap (a := b), Std.OrientedOrd.eq_swap (a := kept),
            ← Ordering.swap_then, compare_zero_nil hmore, List.compare_cons_nil]
          rfl
        next => rw [List.compare_cons_cons]

/-! ## Words -/

/-- The 32-bit word of four bytes, the lowest one first. -/
def word (a b c d : UInt8) : BitVec 32 :=
  d.toBitVec ++ c.toBitVec ++ b.toBitVec ++ a.toBitVec

theorem toNat_append_byte {width : Nat} (high : BitVec width) (low : UInt8) :
    (high ++ low.toBitVec).toNat = low.toNat + 256 * high.toNat := by
  have hlow : low.toBitVec.toNat < 2 ^ 8 := low.toBitVec.isLt
  rw [BitVec.toNat_append, ← Nat.shiftLeft_add_eq_or_of_lt hlow, Nat.shiftLeft_eq]
  change _ = low.toBitVec.toNat + _
  omega

theorem readInt_eq_toInt (a b c d : UInt8) : readInt [a, b, c, d] = (word a b c d).toInt := by
  rw [word, BitVec.toInt_eq_toNat_bmod, toNat_append_byte, toNat_append_byte, toNat_append_byte]
  rfl

/-! ## Cells side by side -/

/-- How two cells of a column compare. -/
inductive Compares : ColumnType → Bytes → Bytes → Ordering → Prop
  /-- The cells of a text compare byte by byte. -/
  | text (width : Nat) (cell other : Bytes) :
      Compares (.char width) cell other (compare cell other)
  /-- The cells of a number compare as signed words. -/
  | integer {type : ColumnType} (htype : type.isInteger = true) (a b c d a' b' c' d' : UInt8) :
      Compares type [a, b, c, d] [a', b', c', d']
        (compare (word a b c d).toInt (word a' b' c' d').toInt)

variable {type : ColumnType} {cell other : Bytes} {value value' : Value} {order : Ordering}

theorem Compares.eq_iff (hcompares : Compares type cell other order) :
    order = .eq ↔ cell = other := by
  cases hcompares with
  | text => exact Std.LawfulEqOrd.compare_eq_iff_eq
  | integer htype a b c d a' b' c' d' =>
      rw [Std.LawfulEqOrd.compare_eq_iff_eq, ← readInt_eq_toInt, ← readInt_eq_toInt]
      constructor
      · intro hsame
        rw [← writeInt_readInt a b c d, hsame, writeInt_readInt]
      · exact congrArg readInt

theorem compare?_readInt (bytes bytes' : Bytes) :
    Value.compare? (.integer (Int64.ofInt (readInt bytes)))
        (.integer (Int64.ofInt (readInt bytes'))) =
      some (compare (readInt bytes) (readInt bytes')) := by
  have hbounds := readInt_bounds bytes
  have hbounds' := readInt_bounds bytes'
  rw [Value.compare?, Int64.toInt_ofInt_of_le (by omega) (by omega),
    Int64.toInt_ofInt_of_le (by omega) (by omega)]

theorem compare?_text {width : Nat} {s s' : String} (hlength : cell.length = width)
    (hlength' : other.length = width) (hencode : Utf8.encode s = withoutPadding cell)
    (hencode' : Utf8.encode s' = withoutPadding other) :
    Value.compare? (.text s) (.text s') = some (compare cell other) := by
  rw [Value.compare?, Utf8.compare_eq_compare_encode, hencode, hencode',
    compare_withoutPadding (hlength.trans hlength'.symm)]

/-- The values of two cells compare as the cells. -/
theorem exists_compares (hlength : cell.length = type.width) (hlength' : other.length = type.width)
    (hread : decode type cell = .ok value) (hread' : decode type other = .ok value') :
    ∃ order, Compares type cell other order ∧ value.compare? value' = some order := by
  obtain ⟨-, hvalue⟩ := decode_eq_ok hread
  obtain ⟨-, hvalue'⟩ := decode_eq_ok hread'
  rw [List.take_of_length_le (Nat.le_of_eq hlength)] at hvalue
  rw [List.take_of_length_le (Nat.le_of_eq hlength')] at hvalue'
  rcases hvalue with ⟨htype, rfl⟩ | ⟨width, s, rfl, rfl, hencode⟩
  · rcases hvalue' with ⟨-, rfl⟩ | ⟨width, s, rfl, -, -⟩
    · rw [width_of_isInteger htype] at hlength hlength'
      obtain ⟨a, b, c, d, rfl⟩ := List.length_eq_four.mp hlength
      obtain ⟨a', b', c', d', rfl⟩ := List.length_eq_four.mp hlength'
      refine ⟨_, .integer htype a b c d a' b' c' d', ?_⟩
      rw [compare?_readInt, readInt_eq_toInt, readInt_eq_toInt]
    · cases htype
  · rcases hvalue' with ⟨htype, -⟩ | ⟨width', s', hwidth, rfl, hencode'⟩
    · cases htype
    · exact ⟨_, .text width cell other, compare?_text hlength hlength' hencode hencode'⟩

theorem exists_text_of_decode {width : Nat} {bytes : Bytes}
    (hread : decode (.char width) bytes = .ok value) : ∃ s, value = .text s := by
  obtain ⟨-, ⟨htype, -⟩ | ⟨-, s, -, rfl, -⟩⟩ := decode_eq_ok hread
  · cases htype
  · exact ⟨s, rfl⟩

/-- The values of two cells of a column have an order. It is that of the cells, and every
comparison of the values goes by it, so that the values are equal only if the cells are the same.
Texts have the order of the code points of their characters, too. -/
theorem compare_of_decode (hlength : cell.length = type.width)
    (hlength' : other.length = type.width) (hread : decode type cell = .ok value)
    (hread' : decode type other = .ok value') :
    ∃ order, Compares type cell other order ∧ value.compare? value' = some order ∧
      (∀ field operator,
        (Condition.mk field operator value').holds value = operator.holds order) ∧
      (∀ field, (Condition.mk field .equal value').holds value = true ↔ cell = other) ∧
      ∀ width, type = .char width → ∃ s s', value = .text s ∧ value' = .text s' ∧
        order = compare (s.toList.map Char.toNat) (s'.toList.map Char.toNat) := by
  obtain ⟨order, hcompares, hcompare⟩ := exists_compares hlength hlength' hread hread'
  have hholds := Condition.holds_of_compare? hcompare
  refine ⟨order, hcompares, hcompare, hholds, fun field => ?_, ?_⟩
  · rw [hholds, Operator.holds, beq_iff_eq, hcompares.eq_iff]
  · rintro width rfl
    obtain ⟨s, rfl⟩ := exists_text_of_decode hread
    obtain ⟨s', rfl⟩ := exists_text_of_decode hread'
    refine ⟨s, s', rfl, rfl, ?_⟩
    rw [← Utf8.compare_eq_compare_codePoints]
    exact (Option.some.inj hcompare).symm

/-- The last character of three bytes comes before one of four bytes, and minus one before zero,
although its first byte does not. -/
theorem compare_of_decode_cells :
    decode (.char 4) [0xEF, 0xBF, 0xBF, 0] = .ok (.text "\uffff") ∧
      decode (.char 4) [0xF0, 0x9F, 0x98, 0x80] = .ok (.text "😀") ∧
      (∀ field, (Condition.mk field .less (.text "😀")).holds (.text "\uffff") = true) ∧
      decode .date [0xFF, 0xFF, 0xFF, 0xFF] = .ok (.integer (-1)) ∧
      decode .date [0, 0, 0, 0] = .ok (.integer 0) ∧
      Compares .date [0xFF, 0xFF, 0xFF, 0xFF] [0, 0, 0, 0] .lt := by
  have hlower : decode (.char 4) [0xEF, 0xBF, 0xBF, 0] = .ok (.text "\uffff") := by decide +kernel
  have hhigher : decode (.char 4) [0xF0, 0x9F, 0x98, 0x80] = .ok (.text "😀") := by decide +kernel
  have hminus : decode .date [0xFF, 0xFF, 0xFF, 0xFF] = .ok (.integer (-1)) := by decide +kernel
  have hzero : decode .date [0, 0, 0, 0] = .ok (.integer 0) := by decide +kernel
  refine ⟨hlower, hhigher, ?_, hminus, hzero, ?_⟩
  · obtain ⟨order, hcompares, -, hholds, -⟩ := compare_of_decode rfl rfl hlower hhigher
    cases hcompares with
    | text => exact fun field => hholds field .less
    | integer htype => cases htype
  · obtain ⟨order, hcompares, hcompare, -⟩ := compare_of_decode rfl rfl hminus hzero
    cases hcompare
    exact hcompares

end Tabular.Cell
