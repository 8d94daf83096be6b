import Mathlib.Tactic.SplitIfs
import Tabular.Proofs.Outcome
import Tabular.Proofs.Utf8

/-! # Byte strings that are texts

A byte string decodes to a text exactly if it is the encoding of the text. It is read
character by character: the bounds of a first and a second byte leave out the longer forms
of characters that have a shorter one, so that no character is read from other bytes than
its own.
-/

namespace Tabular.Utf8

/-- What a first byte announces is in keeping with its value. -/
def Lead.Suits : Lead → Nat → Prop
  | .ascii, n => n < 0x80
  | .two, n => 0xC2 ≤ n ∧ n < 0xE0
  | .three low high, n => (0xE0 ≤ n ∧ n < 0xF0) ∧ (0x80 ≤ low.toNat ∧ high.toNat < 0xC0) ∧
    (n = 0xE0 → 0xA0 ≤ low.toNat) ∧ (n = 0xED → high.toNat < 0xA0)
  | .four low high, n => (0xF0 ≤ n ∧ n < 0xF5) ∧ (0x80 ≤ low.toNat ∧ high.toNat < 0xC0) ∧
    (n = 0xF0 → 0x90 ≤ low.toNat) ∧ (n = 0xF4 → high.toNat < 0x90)
  | .never, _ => True

theorem lead_suits (b : UInt8) : (lead b).Suits b.toNat := by
  unfold lead
  simp only [UInt8.lt_iff_toNat_lt, ← UInt8.toNat_inj, UInt8.reduceToNat]
  -- Each case is between the bounds that were passed on the way to it.
  split_ifs <;> simp only [Lead.Suits, UInt8.reduceToNat] <;> omega

section Characters

variable {v : Nat}

theorem toNat_val_ofNat (hvalid : v.isValidChar) : (Char.ofNat v).val.toNat = v := by
  rw [Char.ofNat, dif_pos hvalid]
  rfl

theorem encodeChar_one (hv : v < 0x80) :
    String.utf8EncodeChar (Char.ofNat v) = [UInt8.ofNat v] := by
  have hvalue := toNat_val_ofNat (v := v) (.inl (by omega))
  simp only [String.utf8EncodeChar, hvalue]
  rw [if_pos (by omega)]

theorem encodeChar_two (hlow : 0x80 ≤ v) (hhigh : v < 0x800) :
    String.utf8EncodeChar (Char.ofNat v) =
      [UInt8.ofNat (v / 64 % 32 + 0xC0), UInt8.ofNat (v % 64 + 0x80)] := by
  have hvalue := toNat_val_ofNat (v := v) (.inl (by omega))
  simp only [String.utf8EncodeChar, hvalue]
  rw [if_neg (by omega), if_pos (by omega)]

theorem encodeChar_three (hlow : 0x800 ≤ v) (hhigh : v < 0x10000)
    (hscalar : v < 0xD800 ∨ 0xDFFF < v) :
    String.utf8EncodeChar (Char.ofNat v) =
      [UInt8.ofNat (v / 4096 % 16 + 0xE0), UInt8.ofNat (v / 64 % 64 + 0x80),
        UInt8.ofNat (v % 64 + 0x80)] := by
  have hvalue := toNat_val_ofNat (v := v) (hscalar.imp_right fun h => ⟨h, by omega⟩)
  simp only [String.utf8EncodeChar, hvalue]
  rw [if_neg (by omega), if_neg (by omega), if_pos (by omega)]

theorem encodeChar_four (hlow : 0x10000 ≤ v) (hhigh : v < 0x110000) :
    String.utf8EncodeChar (Char.ofNat v) =
      [UInt8.ofNat (v / 262144 % 8 + 0xF0), UInt8.ofNat (v / 4096 % 64 + 0x80),
        UInt8.ofNat (v / 64 % 64 + 0x80), UInt8.ofNat (v % 64 + 0x80)] := by
  have hvalue := toNat_val_ofNat (v := v) (.inr ⟨by omega, hhigh⟩)
  simp only [String.utf8EncodeChar, hvalue]
  rw [if_neg (by omega), if_neg (by omega), if_neg (by omega)]

end Characters

section Reading

variable {b b₁ b₂ b₃ low high : UInt8}

theorem ofNat_eq_of_mod {n : Nat} (b : UInt8) (hbyte : n % 256 = b.toNat) : UInt8.ofNat n = b := by
  rw [← UInt8.toNat_inj, UInt8.toNat_ofNat', hbyte]

theorem continues_iff : continues b = true ↔ 0x80 ≤ b.toNat ∧ b.toNat < 0xC0 := by
  simp only [continues, Bool.and_eq_true, decide_eq_true_iff, UInt8.le_iff_toNat_le]
  exact and_congr_right fun _ => Nat.lt_succ_iff.symm

theorem between_iff : (low ≤ b && b ≤ high) = true ↔ low.toNat ≤ b.toNat ∧ b.toNat ≤ high.toNat := by
  simp only [Bool.and_eq_true, decide_eq_true_iff, UInt8.le_iff_toNat_le]

theorem encodeChar_of_lead_ascii (hlead : lead b = .ascii) :
    String.utf8EncodeChar (Char.ofNat b.toNat) = [b] := by
  have hfirst := lead_suits b
  rw [hlead] at hfirst
  rw [encodeChar_one hfirst, UInt8.ofNat_toNat]

theorem encodeChar_of_lead_two (hlead : lead b = .two) (hsecond : continues b₁ = true) :
    String.utf8EncodeChar (Char.ofNat (b.toNat % 32 * 64 + payload b₁)) = [b, b₁] := by
  have hfirst := lead_suits b
  rw [hlead] at hfirst
  obtain ⟨hlow, hhigh⟩ := hfirst
  obtain ⟨hlow₁, hhigh₁⟩ := continues_iff.mp hsecond
  rw [payload, encodeChar_two (by omega) (by omega)]
  rw [ofNat_eq_of_mod b (by omega), ofNat_eq_of_mod b₁ (by omega)]

theorem encodeChar_of_lead_three (hlead : lead b = .three low high)
    (hsecond : (low ≤ b₁ && b₁ ≤ high) = true) (hthird : continues b₂ = true) :
    String.utf8EncodeChar
      (Char.ofNat ((b.toNat % 16 * 64 + payload b₁) * 64 + payload b₂)) = [b, b₁, b₂] := by
  have hfirst := lead_suits b
  rw [hlead] at hfirst
  obtain ⟨⟨hleast, hmost⟩, ⟨hlow, hhigh⟩, hoverlong, hsurrogate⟩ := hfirst
  obtain ⟨hlow₁, hhigh₁⟩ := between_iff.mp hsecond
  obtain ⟨hlow₂, hhigh₂⟩ := continues_iff.mp hthird
  rw [payload, payload, encodeChar_three (by omega) (by omega) (by omega)]
  rw [ofNat_eq_of_mod b (by omega), ofNat_eq_of_mod b₁ (by omega),
    ofNat_eq_of_mod b₂ (by omega)]

theorem encodeChar_of_lead_four (hlead : lead b = .four low high)
    (hsecond : (low ≤ b₁ && b₁ ≤ high) = true) (hthird : continues b₂ = true)
    (hfourth : continues b₃ = true) :
    String.utf8EncodeChar
      (Char.ofNat (((b.toNat % 8 * 64 + payload b₁) * 64 + payload b₂) * 64 + payload b₃)) =
        [b, b₁, b₂, b₃] := by
  have hfirst := lead_suits b
  rw [hlead] at hfirst
  obtain ⟨⟨hleast, hmost⟩, ⟨hlow, hhigh⟩, hoverlong, hbeyond⟩ := hfirst
  obtain ⟨hlow₁, hhigh₁⟩ := between_iff.mp hsecond
  obtain ⟨hlow₂, hhigh₂⟩ := continues_iff.mp hthird
  obtain ⟨hlow₃, hhigh₃⟩ := continues_iff.mp hfourth
  rw [payload, payload, payload, encodeChar_four (by omega) (by omega)]
  rw [ofNat_eq_of_mod b (by omega), ofNat_eq_of_mod b₁ (by omega),
    ofNat_eq_of_mod b₂ (by omega), ofNat_eq_of_mod b₃ (by omega)]

end Reading

/-- A character that has been read may as well be among the bytes that are left. -/
theorem encode_done_cons {c : Char} {encoded : Bytes} (hc : String.utf8EncodeChar c = encoded)
    (done : List Char) (rest : Bytes) :
    (c :: done).reverse.flatMap String.utf8EncodeChar ++ rest =
      done.reverse.flatMap String.utf8EncodeChar ++ (encoded ++ rest) := by
  rw [List.reverse_cons, List.flatMap_append, List.flatMap_singleton, hc, List.append_assoc]

/-- What is read of a byte string are the characters that were there before and those that
the byte string encodes. -/
theorem flatMap_of_decodeFrom {index : Nat} {done chars : List Char} {bytes : Bytes}
    (hread : decodeFrom index done bytes = .ok chars) :
    chars.flatMap String.utf8EncodeChar = done.reverse.flatMap String.utf8EncodeChar ++ bytes := by
  -- Only the end of the bytes and a whole character of each length are no faults.
  fun_induction decodeFrom index done bytes with
  | case1 index done =>
      cases hread
      rw [List.append_nil]
  | case3 index done b rest hlead ih =>
      rw [ih hread]
      exact encode_done_cons (encodeChar_of_lead_ascii hlead) done rest
  | case5 index done b hlead b₁ rest hsecond ih =>
      rw [ih hread]
      exact encode_done_cons (encodeChar_of_lead_two hlead hsecond) done rest
  | case9 index done b low high hlead b₁ hsecond b₂ rest hthird ih =>
      rw [ih hread]
      exact encode_done_cons (encodeChar_of_lead_three hlead hsecond hthird) done rest
  | case15 index done b low high hlead b₁ hsecond b₂ hthird b₃ rest hfourth ih =>
      rw [ih hread]
      exact encode_done_cons (encodeChar_of_lead_four hlead hsecond hthird hfourth) done rest
  | _ => cases hread

/-- A byte string decodes to a text exactly if it is the encoding of the text. -/
theorem decode_eq_ok {bytes : Bytes} {s : String} : decode bytes = .ok s ↔ encode s = bytes := by
  constructor
  · intro hdecode
    obtain ⟨chars, hread, rfl⟩ := Outcome.map_eq_ok.mp hdecode
    rw [encode_ofList, flatMap_of_decodeFrom hread]
    rfl
  · rintro rfl
    exact decode_encode s

end Tabular.Utf8
