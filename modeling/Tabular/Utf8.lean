import Tabular.Word

/-! # UTF-8

Encoding of texts and validated decoding of byte strings. A byte string that is
no text is refused with the place of its first fault: how many bytes before it
are well formed, and how many bytes there begin a character without finishing
one. The byte order of encoded texts is the order in which texts compare.
-/

namespace Tabular.Utf8

def encode (s : String) : Bytes :=
  s.toList.flatMap String.utf8EncodeChar

/-- Different texts have different encodings. -/
theorem encode_injective {s t : String} (henc : encode s = encode t) : s = t := by
  have hbytes : (String.ofList s.toList).toByteArray = (String.ofList t.toList).toByteArray := by
    rw [String.toByteArray_ofList, String.toByteArray_ofList]
    exact congrArg List.toByteArray henc
  simpa using String.toByteArray_inj.1 hbytes

/-- Where a byte string stops being UTF-8. -/
structure Fault where
  /-- Number of bytes in the longest well-formed beginning. -/
  validBytes : Nat
  /-- Number of bytes from there on that begin a character but cannot go on to
  finish it; none if the byte string ends inside a character. -/
  badBytes : Option Nat
  deriving DecidableEq

def Fault.message (fault : Fault) : String :=
  match fault.badBytes with
  | some n =>
    "invalid utf-8 sequence of " ++ n.repr ++ " bytes from index " ++ fault.validBytes.repr
  | none => "incomplete utf-8 byte sequence from index " ++ fault.validBytes.repr

/-- What a first byte announces. Of longer characters the bounds of the second
byte are given: they exclude overlong forms, surrogates and code points beyond
the last plane. -/
inductive Lead
  | ascii
  | two
  | three (low high : UInt8)
  | four (low high : UInt8)
  | never

def lead (b : UInt8) : Lead :=
  if b < 0x80 then .ascii
  else if b < 0xC2 then .never
  else if b < 0xE0 then .two
  else if b = 0xE0 then .three 0xA0 0xBF
  else if b = 0xED then .three 0x80 0x9F
  else if b < 0xF0 then .three 0x80 0xBF
  else if b = 0xF0 then .four 0x90 0xBF
  else if b < 0xF4 then .four 0x80 0xBF
  else if b = 0xF4 then .four 0x80 0x8F
  else .never

def continues (b : UInt8) : Bool :=
  0x80 ≤ b && b ≤ 0xBF

def payload (b : UInt8) : Nat :=
  b.toNat % 64

/-- Decodes from a byte index on, with the characters before it in reverse. -/
def decodeFrom (index : Nat) (done : List Char) : Bytes → Except Fault (List Char)
  | [] => .ok done.reverse
  | b :: rest =>
    match lead b with
    | .never => .error ⟨index, some 1⟩
    | .ascii => decodeFrom (index + 1) (Char.ofNat b.toNat :: done) rest
    | .two =>
      match rest with
      | [] => .error ⟨index, none⟩
      | b₁ :: rest =>
        if continues b₁ then
          decodeFrom (index + 2) (Char.ofNat (b.toNat % 32 * 64 + payload b₁) :: done) rest
        else .error ⟨index, some 1⟩
    | .three low high =>
      match rest with
      | [] => .error ⟨index, none⟩
      | b₁ :: rest =>
        if low ≤ b₁ && b₁ ≤ high then
          match rest with
          | [] => .error ⟨index, none⟩
          | b₂ :: rest =>
            if continues b₂ then
              decodeFrom (index + 3)
                (Char.ofNat ((b.toNat % 16 * 64 + payload b₁) * 64 + payload b₂) :: done) rest
            else .error ⟨index, some 2⟩
        else .error ⟨index, some 1⟩
    | .four low high =>
      match rest with
      | [] => .error ⟨index, none⟩
      | b₁ :: rest =>
        if low ≤ b₁ && b₁ ≤ high then
          match rest with
          | [] => .error ⟨index, none⟩
          | b₂ :: rest =>
            if continues b₂ then
              match rest with
              | [] => .error ⟨index, none⟩
              | b₃ :: rest =>
                if continues b₃ then
                  decodeFrom (index + 4)
                    (Char.ofNat (((b.toNat % 8 * 64 + payload b₁) * 64 + payload b₂) * 64
                      + payload b₃) :: done) rest
                else .error ⟨index, some 3⟩
            else .error ⟨index, some 2⟩
        else .error ⟨index, some 1⟩

def decode (bytes : Bytes) : Except Fault String :=
  (decodeFrom 0 [] bytes).map String.ofList

/-- Texts are ordered by the bytes that encode them. -/
def Before (a b : String) : Prop :=
  encode a < encode b

instance : DecidableRel Before := fun a b =>
  inferInstanceAs (Decidable (encode a < encode b))

theorem Before.irrefl (a : String) : ¬ Before a a :=
  List.lt_irrefl (encode a)

theorem Before.trans {a b c : String} (hab : Before a b) (hbc : Before b c) : Before a c :=
  List.lt_trans hab hbc

/-- Of two different texts one comes before the other. -/
theorem Before.connected {a b : String} (hne : a ≠ b) (hnot : ¬ Before a b) : Before b a := by
  have hle : encode b ≤ encode a := List.not_lt.1 hnot
  exact Std.lt_of_le_of_ne hle fun heq => hne (encode_injective heq.symm)

def compare (a b : String) : Ordering :=
  if Before a b then .lt else if a = b then .eq else .gt

end Tabular.Utf8
