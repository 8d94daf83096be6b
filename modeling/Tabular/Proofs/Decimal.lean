import Tabular.Text.Decimal

/-! # Reading back numbers

What is written for a number is read as that number. An integer is its digits, after a
minus sign if it is negative, so that the signs of its reader are told apart. Any digits
behind a minus sign or none are a numeral, and an integer is read from the numerals in its
range and, if the sign may be a plus sign, from nothing else.
-/

namespace Tabular.Text

variable {text : List Char}

theorem toList_ofNat (n : Nat) : (ofNat n).toList = Nat.toDigits 10 n :=
  Nat.toList_repr

theorem toList_ofNat_ne_nil (n : Nat) : (ofNat n).toList ≠ [] := by
  rw [toList_ofNat]
  exact Nat.toDigits_ne_nil

theorem isDigit_of_mem_ofNat {n : Nat} {c : Char} (hc : c ∈ (ofNat n).toList) :
    c.isDigit = true := by
  rw [toList_ofNat] at hc
  exact Nat.isDigit_of_mem_toDigits (by decide) (by decide) hc

theorem natural?_eq_some_iff {cs : List Char} {n : Nat} :
    natural? cs = some n ↔
      cs ≠ [] ∧ (∀ c ∈ cs, c.isDigit = true) ∧ Nat.ofDigitChars 10 cs 0 = n := by
  rw [natural?]
  split
  next hnone =>
    simp only [reduceCtorEq, false_iff]
    rintro ⟨hsome, hdigits, -⟩
    simp [hsome, List.all_eq_true.mpr hdigits] at hnone
  next hdigits =>
    simp only [Bool.or_eq_true, List.isEmpty_iff, not_or, Bool.not_eq_true', Bool.not_eq_false,
      List.all_eq_true] at hdigits
    simpa [hdigits.1] using fun _ => hdigits.2

theorem natural?_ofNat (n : Nat) : natural? (ofNat n).toList = some n := by
  refine natural?_eq_some_iff.mpr ⟨toList_ofNat_ne_nil n, fun c => isDigit_of_mem_ofNat, ?_⟩
  rw [toList_ofNat, Nat.ofDigitChars_toDigits (by decide) (by decide)]

/-- Digits start with neither sign. -/
theorem head?_ne_of_digits {c : Char} (hc : c.isDigit = false)
    (hdigits : ∀ d ∈ text, d.isDigit = true) : text.head? ≠ some c := by
  intro hhead
  rw [hdigits c (List.mem_of_head? hhead)] at hc
  cases hc

theorem unsigned?_eq_some_iff {limit n : Nat} (hplus : text.head? ≠ some '+') :
    unsigned? limit text = some n ↔ natural? text = some n ∧ n < limit := by
  unfold unsigned?
  split
  next rest => exact absurd rfl hplus
  next =>
    dsimp only
    cases natural? text with
    | none => simp
    | some k =>
        simp only [Option.ite_none_right_eq_some, Option.some.injEq]
        constructor
        · rintro ⟨hlimit, rfl⟩
          exact ⟨rfl, hlimit⟩
        · rintro ⟨rfl, hlimit⟩
          exact ⟨hlimit, rfl⟩

theorem unsigned?_ofNat {n limit : Nat} (hlimit : n < limit) :
    unsigned? limit (ofNat n).toList = some n := by
  have hplus : (ofNat n).toList.head? ≠ some '+' :=
    head?_ne_of_digits rfl fun c => isDigit_of_mem_ofNat
  exact (unsigned?_eq_some_iff hplus).mpr ⟨natural?_ofNat n, hlimit⟩

theorem toList_ofInt_negSucc (n : Nat) : (ofInt (.negSucc n)).toList = '-' :: (ofNat (n + 1)).toList := by
  rw [ofInt, String.toList_append]
  rfl

/-- An integer is written with digits and perhaps a minus sign. -/
theorem mem_ofInt {n : Int} {c : Char} (hc : c ∈ (ofInt n).toList) : c = '-' ∨ c.isDigit = true := by
  cases n with
  | ofNat k => exact .inr (isDigit_of_mem_ofNat hc)
  | negSucc k =>
      rw [toList_ofInt_negSucc] at hc
      exact (List.mem_cons.mp hc).imp_right isDigit_of_mem_ofNat

theorem toList_ofInt_ne_nil (n : Int) : (ofInt n).toList ≠ [] := by
  cases n with
  | ofNat k => exact toList_ofNat_ne_nil k
  | negSucc k => simp [toList_ofInt_negSucc]

/-- The text is one or more digits, perhaps behind a minus sign, and this is its value. -/
inductive Numeral : List Char → Int → Prop
  | plain {digits : List Char} (hsome : digits ≠ []) (hdigits : ∀ c ∈ digits, c.isDigit = true) :
      Numeral digits (Nat.ofDigitChars 10 digits 0)
  | negative {digits : List Char} (hsome : digits ≠ [])
      (hdigits : ∀ c ∈ digits, c.isDigit = true) :
      Numeral ('-' :: digits) (-(Nat.ofDigitChars 10 digits 0 : Int))

theorem numeral_ofInt (n : Int) : Numeral (ofInt n).toList n := by
  have hvalue : ∀ k, Nat.ofDigitChars 10 (ofNat k).toList 0 = k := fun k =>
    (natural?_eq_some_iff.mp (natural?_ofNat k)).2.2
  cases n with
  | ofNat k =>
      have hnumeral := Numeral.plain (toList_ofNat_ne_nil k) fun c => isDigit_of_mem_ofNat
      rwa [hvalue] at hnumeral
  | negSucc k =>
      have hnumeral := Numeral.negative (toList_ofNat_ne_nil (k + 1)) fun c => isDigit_of_mem_ofNat
      rwa [hvalue, ← toList_ofInt_negSucc] at hnumeral

theorem integer?_of_head?_ne (hminus : text.head? ≠ some '-') {n : Int64} :
    integer? text = some n ↔
      ∃ k, unsigned? 0x8000000000000000 text = some k ∧ Int64.ofInt k = n := by
  unfold integer?
  split
  next digits => exact absurd rfl hminus
  next => cases unsigned? 0x8000000000000000 text <;> simp

theorem integer?_minus {digits : List Char} {n : Int64} :
    integer? ('-' :: digits) = some n ↔
      ∃ k, natural? digits = some k ∧ k ≤ 0x8000000000000000 ∧ Int64.ofInt (-(k : Int)) = n := by
  rw [integer?]
  cases natural? digits <;> simp

/-- A plus sign apart, a 64-bit integer is read of the numerals with its value. -/
theorem numeral_iff {n : Int64} :
    Numeral text n.toInt ↔ integer? text = some n ∧ text.head? ≠ some '+' := by
  have hhigh := n.toInt_lt
  have hlow := n.le_toInt
  have hback := Int64.ofInt_toInt n
  constructor
  · intro hnumeral
    generalize n.toInt = value at hnumeral hhigh hlow hback
    cases hnumeral with
    | plain hsome hdigits =>
        have hplus : text.head? ≠ some '+' := head?_ne_of_digits rfl hdigits
        have hminus : text.head? ≠ some '-' := head?_ne_of_digits rfl hdigits
        have hlimit : Nat.ofDigitChars 10 text 0 < 0x8000000000000000 := by omega
        have hread := natural?_eq_some_iff.mpr ⟨hsome, hdigits, rfl⟩
        have hunsigned := (unsigned?_eq_some_iff hplus).mpr ⟨hread, hlimit⟩
        exact ⟨(integer?_of_head?_ne hminus).mpr ⟨_, hunsigned, hback⟩, hplus⟩
    | negative hsome hdigits =>
        have hread := natural?_eq_some_iff.mpr ⟨hsome, hdigits, rfl⟩
        exact ⟨integer?_minus.mpr ⟨_, hread, by omega, hback⟩, by simp⟩
  · rintro ⟨hread, hplus⟩
    by_cases hminus : text.head? = some '-'
    · obtain ⟨digits, rfl⟩ := List.head?_eq_some_iff.mp hminus
      obtain ⟨k, hk, hlimit, rfl⟩ := integer?_minus.mp hread
      obtain ⟨hsome, hdigits, rfl⟩ := natural?_eq_some_iff.mp hk
      rw [Int64.toInt_ofInt_of_le (by omega) (by omega)]
      exact .negative hsome hdigits
    · obtain ⟨k, hk, rfl⟩ := (integer?_of_head?_ne hminus).mp hread
      obtain ⟨hnatural, hlimit⟩ := (unsigned?_eq_some_iff hplus).mp hk
      obtain ⟨hsome, hdigits, rfl⟩ := natural?_eq_some_iff.mp hnatural
      rw [Int64.toInt_ofInt_of_le (by omega) (by omega)]
      exact .plain hsome hdigits

/-- Every 64-bit integer is read back from what is written for it. -/
theorem integer?_ofInt (n : Int64) : integer? (ofInt n.toInt).toList = some n :=
  (numeral_iff.mp (numeral_ofInt n.toInt)).1

end Tabular.Text
