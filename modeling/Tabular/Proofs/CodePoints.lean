import Tabular.Proofs.Decoding

/-! # Texts in the order of their code points

Texts compare by the bytes that encode them, and that is by the code points of their characters:
the first byte of a character goes up with the length of its encoding, and the bytes behind it
are digits of the code point, the highest one first.
-/

namespace Tabular.Utf8

theorem compare_eq_lt_iff {bytes bytes' : Bytes} :
    Ord.compare bytes bytes' = .lt ↔ bytes < bytes' := by
  induction bytes generalizing bytes' with
  | nil => cases bytes' <;> simp
  | cons b rest ih =>
      cases bytes' with
      | nil => simp
      | cons b' rest' =>
          rw [List.compare_cons_cons, Ordering.then_eq_lt, Std.compare_eq_lt,
            Std.LawfulEqOrd.compare_eq_iff_eq, ih, List.cons_lt_cons_iff]

/-- Texts compare as the bytes that encode them. -/
theorem compare_eq_compare_encode (s t : String) :
    compare s t = Ord.compare (encode s) (encode t) := by
  rw [compare]
  split
  next hbefore => exact (compare_eq_lt_iff.mpr hbefore).symm
  next hnot =>
    split
    next heq => rw [heq, Std.ReflOrd.compare_self]
    next hne =>
      have hafter : Ord.compare (encode t) (encode s) = .lt :=
        compare_eq_lt_iff.mpr (Before.connected hne hnot)
      rw [Std.OrientedOrd.eq_swap, hafter]
      rfl

/-- In the first byte in which two byte strings differ the one has less than the other. -/
inductive Below : Bytes → Bytes → Prop
  | head {b b' : UInt8} {rest rest' : Bytes} (hlt : b < b') : Below (b :: rest) (b' :: rest')
  | tail {b : UInt8} {rest rest' : Bytes} (hrest : Below rest rest') :
    Below (b :: rest) (b :: rest')

/-- What follows makes no difference to the order then. -/
theorem Below.compare_append {bytes bytes' : Bytes} (hbelow : Below bytes bytes')
    (more more' : Bytes) : Ord.compare (bytes ++ more) (bytes' ++ more') = .lt := by
  induction hbelow with
  | head hlt =>
      rw [List.cons_append, List.cons_append, List.compare_cons_cons, Std.compare_eq_lt.mpr hlt]
      rfl
  | tail hrest ih =>
      rw [List.cons_append, List.cons_append, List.compare_cons_cons, ih, Std.ReflOrd.compare_self]
      rfl

theorem below_cons {n m : Nat} {rest rest' : Bytes} (hbyte : m < 256)
    (hbelow : n < m ∨ n = m ∧ Below rest rest') :
    Below (UInt8.ofNat n :: rest) (UInt8.ofNat m :: rest') := by
  rcases hbelow with hlt | ⟨rfl, hrest⟩
  · apply Below.head
    rw [UInt8.lt_iff_toNat_lt, UInt8.toNat_ofNat_of_lt' (show _ < 256 by omega),
      UInt8.toNat_ofNat_of_lt' hbyte]
    exact hlt
  · exact .tail hrest

/-- The number of bytes behind the first one in the encoding of a character. -/
def followers (v : Nat) : Nat :=
  if v < 0x80 then 0 else if v < 0x800 then 1 else if v < 0x10000 then 2 else 3

/-- The value of the first byte. -/
def firstByte (v : Nat) : Nat :=
  if v < 0x80 then v else if v < 0x800 then v / 64 + 0xC0
  else if v < 0x10000 then v / 64 ^ 2 + 0xE0 else v / 64 ^ 3 + 0xF0

/-- The last digits of a number to the base 64, in bytes that go on with a character. -/
def continuation : Nat → Nat → Bytes
  | 0, _ => []
  | count + 1, v => UInt8.ofNat (v / 64 ^ count % 64 + 0x80) :: continuation count v

/-- Numbers that agree in the digits before are ordered by the continuation. -/
theorem below_continuation {count v w : Nat} (hlt : v < w)
    (hsame : v / 64 ^ count = w / 64 ^ count) :
    Below (continuation count v) (continuation count w) := by
  induction count with
  | zero =>
      rw [Nat.pow_zero, Nat.div_one, Nat.div_one] at hsame
      exact absurd hsame (Nat.ne_of_lt hlt)
  | succ count ih =>
      rw [Nat.pow_succ, ← Nat.div_div_eq_div_mul, ← Nat.div_div_eq_div_mul] at hsame
      have hle : v / 64 ^ count ≤ w / 64 ^ count := Nat.div_le_div_right (Nat.le_of_lt hlt)
      apply below_cons (by omega)
      by_cases hdigit : v / 64 ^ count = w / 64 ^ count
      · exact .inr ⟨by rw [hdigit], ih hdigit⟩
      · exact .inl (by omega)

/-- A character is encoded in its first byte and the continuation. -/
theorem encodeChar_eq (c : Char) :
    String.utf8EncodeChar c =
      UInt8.ofNat (firstByte c.toNat) :: continuation (followers c.toNat) c.toNat := by
  have hvalid : c.toNat < 0xD800 ∨ 0xDFFF < c.toNat ∧ c.toNat < 0x110000 := c.valid
  conv_lhs => rw [← Char.ofNat_toNat c]
  rw [firstByte, followers]
  rcases Nat.lt_or_ge c.toNat 0x80 with hone | hone
  · rw [encodeChar_one hone, if_pos hone, if_pos hone]
    rfl
  rcases Nat.lt_or_ge c.toNat 0x800 with htwo | htwo
  · rw [encodeChar_two hone htwo, Nat.mod_eq_of_lt (a := c.toNat / 64) (by omega)]
    simp [htwo, Nat.not_lt.mpr hone, continuation]
  rcases Nat.lt_or_ge c.toNat 0x10000 with hthree | hthree
  · rw [encodeChar_three htwo hthree (by omega), Nat.mod_eq_of_lt (a := c.toNat / 4096) (by omega)]
    simp [hthree, Nat.not_lt.mpr hone, Nat.not_lt.mpr htwo, continuation]
  · rw [encodeChar_four hthree (by omega), Nat.mod_eq_of_lt (a := c.toNat / 262144) (by omega)]
    simp [Nat.not_lt.mpr hone, Nat.not_lt.mpr htwo, Nat.not_lt.mpr hthree, continuation]

/-- First bytes do not go down, and characters with one first byte have encodings of one length
that start with the same digits. -/
theorem firstByte_mono {v w : Nat} (hlt : v < w) (hhigh : w < 0x110000) :
    firstByte w < 256 ∧ (firstByte v < firstByte w ∨ firstByte v = firstByte w ∧
      followers v = followers w ∧ v / 64 ^ followers v = w / 64 ^ followers w) := by
  simp only [firstByte, followers]
  split_ifs <;> omega

/-- Of two characters the one with the smaller code point has the lesser encoding, and neither
encoding begins with the other. -/
theorem below_encodeChar {c d : Char} (hlt : c.toNat < d.toNat) :
    Below (String.utf8EncodeChar c) (String.utf8EncodeChar d) := by
  have hvalid : d.toNat < 0xD800 ∨ 0xDFFF < d.toNat ∧ d.toNat < 0x110000 := d.valid
  obtain ⟨hbyte, hfirst⟩ := firstByte_mono hlt (by omega)
  rw [encodeChar_eq, encodeChar_eq]
  refine below_cons hbyte (hfirst.imp_right ?_)
  rintro ⟨hsame, hcount, hdigits⟩
  rw [hcount] at hdigits ⊢
  exact ⟨hsame, below_continuation hlt hdigits⟩

theorem compare_append_left (bytes more more' : Bytes) :
    Ord.compare (bytes ++ more) (bytes ++ more') = Ord.compare more more' := by
  induction bytes with
  | nil => rfl
  | cons b rest ih =>
      rw [List.cons_append, List.cons_append, List.compare_cons_cons, ih, Std.ReflOrd.compare_self]
      rfl

/-- Encoded characters compare as their code points. -/
theorem compare_flatMap (chars chars' : List Char) :
    Ord.compare (chars.flatMap String.utf8EncodeChar) (chars'.flatMap String.utf8EncodeChar) =
      Ord.compare (chars.map Char.toNat) (chars'.map Char.toNat) := by
  induction chars generalizing chars' with
  | nil =>
      cases chars' with
      | nil => rfl
      | cons d rest' =>
          rw [List.flatMap_cons, encodeChar_eq]
          rfl
  | cons c rest ih =>
      cases chars' with
      | nil =>
          rw [List.flatMap_cons, encodeChar_eq]
          rfl
      | cons d rest' =>
          rw [List.flatMap_cons, List.flatMap_cons, List.map_cons, List.map_cons,
            List.compare_cons_cons]
          rcases Nat.lt_trichotomy c.toNat d.toNat with hlt | heq | hgt
          · rw [(below_encodeChar hlt).compare_append, Nat.compare_eq_lt.mpr hlt]
            rfl
          · rw [Char.toNat_inj.mp heq, compare_append_left, ih, Std.ReflOrd.compare_self]
            rfl
          · rw [Std.OrientedOrd.eq_swap, (below_encodeChar hgt).compare_append,
              Nat.compare_eq_gt.mpr hgt]
            rfl

/-- Texts compare by the code points of their characters. -/
theorem compare_eq_compare_codePoints (s t : String) :
    compare s t = Ord.compare (s.toList.map Char.toNat) (t.toList.map Char.toNat) := by
  rw [compare_eq_compare_encode]
  exact compare_flatMap s.toList t.toList

end Tabular.Utf8
