import Mathlib.Data.List.DropRight
import Mathlib.Tactic.IntervalCases
import Tabular.Utf8

/-! # Reading back encoded texts

Decoding the encoding of a text returns the text. The encoding of a character other
than the zero character does not end in a zero byte, so that zero bytes behind a
text can be told from it.
-/

namespace Tabular.Utf8

theorem lead_of_two {n : Nat} (hlow : 2 ≤ n) (hhigh : n < 32) :
    lead (UInt8.ofNat (n + 0xC0)) = .two := by
  interval_cases n <;> rfl

theorem lead_of_three {n : Nat} (hhigh : n < 16) :
    lead (UInt8.ofNat (n + 0xE0)) =
      .three (if n = 0 then 0xA0 else 0x80) (if n = 13 then 0x9F else 0xBF) := by
  interval_cases n <;> rfl

theorem lead_of_four {n : Nat} (hhigh : n < 5) :
    lead (UInt8.ofNat (n + 0xF0)) =
      .four (if n = 0 then 0x90 else 0x80) (if n = 4 then 0x8F else 0xBF) := by
  interval_cases n <;> rfl

theorem continues_of_lt : ∀ n < 64, continues (UInt8.ofNat (n + 0x80)) = true := by
  decide

theorem payload_of_lt : ∀ n < 64, payload (UInt8.ofNat (n + 0x80)) = n := by
  decide

/-- A second byte is within its bounds, which are tighter where the character could
be a shorter one, a surrogate or beyond the last plane. -/
theorem between_of_bounds {first last : Prop} [Decidable first] [Decidable last]
    {low high : UInt8} {n : Nat} (hn : n < 64) (hlow : first → low.toNat ≤ n + 0x80)
    (hhigh : last → n + 0x80 ≤ high.toNat) :
    ((if first then low else 0x80) ≤ UInt8.ofNat (n + 0x80) &&
      UInt8.ofNat (n + 0x80) ≤ if last then high else 0xBF) = true := by
  simp only [Bool.and_eq_true, decide_eq_true_iff, UInt8.le_iff_toNat_le]
  rw [UInt8.toNat_ofNat_of_lt' (show _ < 256 by omega)]
  constructor
  · split
    next hfirst => exact hlow hfirst
    next => exact Nat.le_add_left ..
  · split
    next hlast => exact hhigh hlast
    next =>
      change _ ≤ 0xBF
      omega

section Steps

variable {v : Nat} (index : Nat) (done : List Char) (rest : Bytes)

theorem decodeFrom_one (hv : v < 0x80) :
    decodeFrom index done (UInt8.ofNat v :: rest) =
      decodeFrom (index + 1) (Char.ofNat v :: done) rest := by
  have hbyte : (UInt8.ofNat v).toNat = v := UInt8.toNat_ofNat_of_lt' (show _ < 256 by omega)
  have hlead : lead (UInt8.ofNat v) = .ascii := by
    rw [lead, if_pos]
    rw [UInt8.lt_iff_toNat_lt, hbyte]
    exact hv
  conv_lhs => unfold decodeFrom
  simp only [hlead, hbyte]

theorem decodeFrom_two (hlow : 0x80 ≤ v) (hhigh : v < 0x800) :
    decodeFrom index done (UInt8.ofNat (v / 64 % 32 + 0xC0) :: UInt8.ofNat (v % 64 + 0x80) :: rest) =
      decodeFrom (index + 2) (Char.ofNat v :: done) rest := by
  have hlead : lead (UInt8.ofNat (v / 64 % 32 + 0xC0)) = .two :=
    lead_of_two (by omega) (by omega)
  have hvalue : (v / 64 % 32 + 0xC0) % 32 * 64 + v % 64 = v := by omega
  conv_lhs => unfold decodeFrom
  simp only [hlead, continues_of_lt (v % 64) (by omega), payload_of_lt (v % 64) (by omega), if_true]
  rw [UInt8.toNat_ofNat_of_lt' (show _ < 256 by omega), hvalue]

theorem decodeFrom_three (hlow : 0x800 ≤ v) (hhigh : v < 0x10000)
    (hscalar : v < 0xD800 ∨ 0xDFFF < v) :
    decodeFrom index done (UInt8.ofNat (v / 4096 % 16 + 0xE0) ::
        UInt8.ofNat (v / 64 % 64 + 0x80) :: UInt8.ofNat (v % 64 + 0x80) :: rest) =
      decodeFrom (index + 3) (Char.ofNat v :: done) rest := by
  have hlead := lead_of_three (n := v / 4096 % 16) (by omega)
  have hvalue : ((v / 4096 % 16 + 0xE0) % 16 * 64 + v / 64 % 64) * 64 + v % 64 = v := by omega
  have hsecond : ((if v / 4096 % 16 = 0 then 0xA0 else 0x80) ≤ UInt8.ofNat (v / 64 % 64 + 0x80) &&
      UInt8.ofNat (v / 64 % 64 + 0x80) ≤ if v / 4096 % 16 = 13 then 0x9F else 0xBF) = true := by
    apply between_of_bounds (by omega)
    · intro hfirst
      change 0xA0 ≤ _
      omega
    · intro hlast
      change _ ≤ 0x9F
      omega
  conv_lhs => unfold decodeFrom
  simp only [hlead, hsecond, continues_of_lt (v % 64) (by omega), payload_of_lt (v % 64) (by omega),
    payload_of_lt (v / 64 % 64) (by omega), if_true]
  rw [UInt8.toNat_ofNat_of_lt' (show _ < 256 by omega), hvalue]

theorem decodeFrom_four (hlow : 0x10000 ≤ v) (hhigh : v < 0x110000) :
    decodeFrom index done (UInt8.ofNat (v / 262144 % 8 + 0xF0) ::
        UInt8.ofNat (v / 4096 % 64 + 0x80) :: UInt8.ofNat (v / 64 % 64 + 0x80) ::
        UInt8.ofNat (v % 64 + 0x80) :: rest) =
      decodeFrom (index + 4) (Char.ofNat v :: done) rest := by
  have hlead := lead_of_four (n := v / 262144 % 8) (by omega)
  have hvalue : (((v / 262144 % 8 + 0xF0) % 8 * 64 + v / 4096 % 64) * 64 + v / 64 % 64) * 64 +
      v % 64 = v := by omega
  have hsecond : ((if v / 262144 % 8 = 0 then 0x90 else 0x80) ≤
      UInt8.ofNat (v / 4096 % 64 + 0x80) &&
      UInt8.ofNat (v / 4096 % 64 + 0x80) ≤ if v / 262144 % 8 = 4 then 0x8F else 0xBF) = true := by
    apply between_of_bounds (by omega)
    · intro hfirst
      change 0x90 ≤ _
      omega
    · intro hlast
      change _ ≤ 0x8F
      omega
  conv_lhs => unfold decodeFrom
  simp only [hlead, hsecond, continues_of_lt (v % 64) (by omega), payload_of_lt (v % 64) (by omega),
    continues_of_lt (v / 64 % 64) (by omega), payload_of_lt (v / 64 % 64) (by omega),
    payload_of_lt (v / 4096 % 64) (by omega), if_true]
  rw [UInt8.toNat_ofNat_of_lt' (show _ < 256 by omega), hvalue]

/-- One encoded character is read back, whatever follows it. -/
theorem decodeFrom_encodeChar (c : Char) :
    ∃ next, decodeFrom index done (String.utf8EncodeChar c ++ rest) =
      decodeFrom next (c :: done) rest := by
  have hvalid : c.toNat < 0xD800 ∨ 0xDFFF < c.toNat ∧ c.toNat < 0x110000 := c.valid
  have hread : Char.ofNat c.toNat = c := Char.ofNat_toNat c
  unfold String.utf8EncodeChar
  change ∃ next, decodeFrom index done ((if c.toNat ≤ 0x7F then _ else
    if c.toNat ≤ 0x7FF then _ else if c.toNat ≤ 0xFFFF then _ else _) ++ rest) = _
  by_cases hone : c.toNat ≤ 0x7F
  · refine ⟨index + 1, ?_⟩
    rw [if_pos hone, List.singleton_append]
    have hstep := decodeFrom_one index done rest (v := c.toNat) (by omega)
    rwa [hread] at hstep
  by_cases htwo : c.toNat ≤ 0x7FF
  · refine ⟨index + 2, ?_⟩
    rw [if_neg hone, if_pos htwo]
    have hstep := decodeFrom_two index done rest (v := c.toNat) (by omega) (by omega)
    rwa [hread] at hstep
  by_cases hthree : c.toNat ≤ 0xFFFF
  · refine ⟨index + 3, ?_⟩
    rw [if_neg hone, if_neg htwo, if_pos hthree]
    have hstep := decodeFrom_three index done rest (v := c.toNat) (by omega) (by omega) (by omega)
    rwa [hread] at hstep
  · refine ⟨index + 4, ?_⟩
    rw [if_neg hone, if_neg htwo, if_neg hthree]
    have hstep := decodeFrom_four index done rest (v := c.toNat) (by omega) (by omega)
    rwa [hread] at hstep

end Steps

theorem decodeFrom_flatMap (index : Nat) (done chars : List Char) :
    decodeFrom index done (chars.flatMap String.utf8EncodeChar) = .ok (done.reverse ++ chars) := by
  -- The index only matters to faults, so that it can be any after each character.
  induction chars generalizing index done with
  | nil => simp [decodeFrom]
  | cons c rest ih =>
      obtain ⟨next, hstep⟩ :=
        decodeFrom_encodeChar index done (rest.flatMap String.utf8EncodeChar) c
      rw [List.flatMap_cons, hstep, ih]
      simp

/-- Decoding an encoded text returns the text. -/
theorem decode_encode (s : String) : decode (encode s) = .ok s := by
  rw [decode, encode, decodeFrom_flatMap]
  simp [Except.map]

theorem encode_ofList (chars : List Char) :
    encode (String.ofList chars) = chars.flatMap String.utf8EncodeChar := by
  rw [encode, String.toList_ofList]

/-- The encoding of a character other than the zero character does not end in a zero
byte. -/
theorem exists_encodeChar_concat {c : Char} (hc : c ≠ '\x00') :
    ∃ init last, String.utf8EncodeChar c = init ++ [last] ∧ last ≠ 0 := by
  have hlast (n : Nat) (hn : n < 64) : UInt8.ofNat (n + 0x80) ≠ 0 := by
    intro hzero
    have hvalue := UInt8.toNat_ofNat_of_lt' (show n + 0x80 < 256 by omega)
    rw [hzero] at hvalue
    simp at hvalue
  unfold String.utf8EncodeChar
  simp only
  split
  next hone =>
    refine ⟨[], _, rfl, ?_⟩
    intro hzero
    have hvalue := UInt8.toNat_ofNat_of_lt' (show c.val.toNat < 256 by omega)
    rw [hzero] at hvalue
    apply hc
    have hnat : c.toNat = 0 := hvalue.symm
    rw [← Char.ofNat_toNat c, hnat]
  · split
    · exact ⟨[_], _, rfl, hlast _ (by omega)⟩
    · split
      · exact ⟨[_, _], _, rfl, hlast _ (by omega)⟩
      · exact ⟨[_, _, _], _, rfl, hlast _ (by omega)⟩

end Tabular.Utf8
