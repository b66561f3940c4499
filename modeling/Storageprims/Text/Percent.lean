import Mathlib.Data.List.Basic
import Mathlib.Tactic.Common

/-!
# Percent-encoded text

Encoding goes over the UTF-8 bytes of a text.  An escaped byte is written as a percent sign
and two upper-case hexadecimal digits, any other byte as the character it is; bytes outside
ASCII are always escaped.  Decoding reads the escapes of any text back, and keeps the bytes
of everything else.

`decode_encode`: if percent signs are escaped, decoding gives back what was encoded.
-/

namespace Percent

/-- The hexadecimal digit of a number below 16, in upper case. -/
def hexDigit (n : Nat) : Char := Char.ofNat (if n < 10 then 0x30 + n else 0x41 + (n - 10))

/-- The number of a hexadecimal digit, of either case. -/
def hexValue (c : Char) : Option Nat :=
  if '0' ≤ c ∧ c ≤ '9' then some (c.toNat - 0x30)
  else if 'A' ≤ c ∧ c ≤ 'F' then some (c.toNat - 0x41 + 10)
  else if 'a' ≤ c ∧ c ≤ 'f' then some (c.toNat - 0x61 + 10)
  else none

def encodeByte (escapes : UInt8 → Bool) (b : UInt8) : List Char :=
  if 0x80 ≤ b ∨ escapes b then ['%', hexDigit (b.toNat / 16), hexDigit (b.toNat % 16)]
  else [Char.ofNat b.toNat]

def encodeBytes (escapes : UInt8 → Bool) (bytes : List UInt8) : List Char :=
  bytes.flatMap (encodeByte escapes)

def encode (escapes : UInt8 → Bool) (text : String) : String :=
  String.ofList (encodeBytes escapes text.toByteArray.data.toList)

/-- The bytes of a text with its escapes resolved.  A percent sign without two digits behind
it stands for itself. -/
def decodeChars : List Char → List UInt8
  | [] => []
  | '%' :: high :: low :: rest =>
      match hexValue high, hexValue low with
      | some h, some l => UInt8.ofNat (16 * h + l) :: decodeChars rest
      | _, _ => String.utf8EncodeChar '%' ++ decodeChars (high :: low :: rest)
  | c :: rest => String.utf8EncodeChar c ++ decodeChars rest

def decode (text : String) : Option String :=
  String.fromUTF8? ⟨(decodeChars text.toList).toArray⟩

/-- Every byte but the ASCII letters and digits. -/
def nonAlphanumeric (b : UInt8) : Bool :=
  !((0x30 ≤ b && b ≤ 0x39) || (0x41 ≤ b && b ≤ 0x5A) || (0x61 ≤ b && b ≤ 0x7A))

/-! ## Decoding what was encoded -/

theorem hexValue_hexDigit : ∀ n : Fin 16, hexValue (hexDigit n) = some n.val := by decide

theorem decodeChars_cons {c : Char} (h : c ≠ '%') (rest : List Char) :
    decodeChars (c :: rest) = String.utf8EncodeChar c ++ decodeChars rest := by
  rw [decodeChars]
  rintro _ _ _ rfl
  exact absurd rfl h

theorem decodeChars_escape {h l : Nat} (hh : h < 16) (hl : l < 16) (rest : List Char) :
    decodeChars ('%' :: hexDigit h :: hexDigit l :: rest) =
      UInt8.ofNat (16 * h + l) :: decodeChars rest := by
  rw [decodeChars, hexValue_hexDigit ⟨h, hh⟩, hexValue_hexDigit ⟨l, hl⟩]

/-- The character of an ASCII byte has the number of the byte. -/
theorem toNat_ofNat {b : UInt8} (hb : ¬ 0x80 ≤ b) : (Char.ofNat b.toNat).toNat = b.toNat := by
  have hlt : b.toNat < 0x80 := UInt8.lt_iff_toNat_lt.mp (UInt8.not_le.mp hb)
  have hvalid : b.toNat.isValidChar := .inl (by omega)
  rw [Char.ofNat, dif_pos hvalid]
  rfl

theorem utf8EncodeChar_ofNat {b : UInt8} (hb : ¬ 0x80 ≤ b) :
    String.utf8EncodeChar (Char.ofNat b.toNat) = [b] := by
  have hlt : b.toNat < 0x80 := UInt8.lt_iff_toNat_lt.mp (UInt8.not_le.mp hb)
  have hval : (Char.ofNat b.toNat).val.toNat = b.toNat := toNat_ofNat hb
  rw [String.utf8EncodeChar, hval, if_pos (by omega), UInt8.ofNat_toNat]

variable {escapes : UInt8 → Bool}

theorem decodeChars_encodeByte (hpercent : escapes 0x25 = true) (b : UInt8) (rest : List Char) :
    decodeChars (encodeByte escapes b ++ rest) = b :: decodeChars rest := by
  rw [encodeByte]
  by_cases hescaped : 0x80 ≤ b ∨ escapes b
  · rw [if_pos hescaped]
    have hlt : b.toNat < 256 := b.toNat_lt
    have hbyte : 16 * (b.toNat / 16) + b.toNat % 16 = b.toNat := Nat.div_add_mod _ _
    show decodeChars ('%' :: hexDigit _ :: hexDigit _ :: rest) = _
    rw [decodeChars_escape (by omega) (by omega), hbyte, UInt8.ofNat_toNat]
  · rw [if_neg hescaped]
    rw [not_or] at hescaped
    have hne : Char.ofNat b.toNat ≠ '%' := by
      intro heq
      have hnat : b.toNat = 0x25 := by
        rw [← toNat_ofNat hescaped.1, heq]
        rfl
      have hb : b = 0x25 := UInt8.toNat_inj.mp hnat
      exact hescaped.2 (hb ▸ hpercent)
    rw [List.singleton_append, decodeChars_cons hne, utf8EncodeChar_ofNat hescaped.1]
    rfl

theorem decodeChars_encodeBytes (hpercent : escapes 0x25 = true) (bytes : List UInt8) :
    decodeChars (encodeBytes escapes bytes) = bytes := by
  induction bytes with
  | nil => rfl
  | cons b rest ih =>
      rw [encodeBytes, List.flatMap_cons, decodeChars_encodeByte hpercent]
      exact congrArg (b :: ·) ih

/-- Decoding gives back what was encoded. -/
theorem decode_encode (hpercent : escapes 0x25 = true) (text : String) :
    decode (encode escapes text) = some text := by
  rw [decode, encode, String.toList_ofList, decodeChars_encodeBytes hpercent]
  exact dif_pos text.isValidUTF8

/-- A percent sign is no letter and no digit. -/
theorem nonAlphanumeric_percent : nonAlphanumeric 0x25 = true := rfl

/-! ## The characters of an encoded text -/

theorem isAlphanum_iff {c : Char} : c.isAlphanum = true ↔
    (0x41 ≤ c.toNat ∧ c.toNat ≤ 0x5A) ∨ (0x61 ≤ c.toNat ∧ c.toNat ≤ 0x7A) ∨
      (0x30 ≤ c.toNat ∧ c.toNat ≤ 0x39) := by
  change (((decide (0x41 ≤ c.val ∧ c.val ≤ 0x5A) || decide (0x61 ≤ c.val) &&
    decide (c.val ≤ 0x7A)) || decide (0x30 ≤ c.val) && decide (c.val ≤ 0x39)) = true) ↔ _
  simp [UInt32.le_iff_toNat_le, or_assoc]

/-- A byte that stands for itself is a letter or a digit. -/
theorem isAlphanum_ofNat {b : UInt8} (h : nonAlphanumeric b = false) :
    (Char.ofNat b.toNat).isAlphanum = true := by
  simp only [nonAlphanumeric, Bool.not_eq_false', Bool.or_eq_true, Bool.and_eq_true,
    decide_eq_true_eq, UInt8.le_iff_toNat_le, UInt8.reduceToNat] at h
  have hascii : ¬ 0x80 ≤ b := by
    simp only [UInt8.le_iff_toNat_le, UInt8.reduceToNat]
    omega
  rw [isAlphanum_iff, toNat_ofNat hascii]
  omega

/-- An upper-case hexadecimal digit is a digit or a letter. -/
theorem hexDigit_isAlphanum : ∀ n : Fin 16, (hexDigit n).isAlphanum = true := by decide

/-- Where only letters and digits stand for themselves, percent signs are all there is beside
them. -/
theorem mem_encode {text : String} {c : Char} (h : c ∈ (encode nonAlphanumeric text).toList) :
    c = '%' ∨ c.isAlphanum = true := by
  rw [encode, String.toList_ofList, encodeBytes, List.mem_flatMap] at h
  obtain ⟨b, -, hc⟩ := h
  rw [encodeByte] at hc
  by_cases hescaped : 0x80 ≤ b ∨ nonAlphanumeric b
  · rw [if_pos hescaped] at hc
    have hlt : b.toNat < 256 := b.toNat_lt
    rcases List.mem_cons.mp hc with rfl | hc
    · exact .inl rfl
    · rcases List.mem_pair.mp hc with rfl | rfl
      · exact .inr (hexDigit_isAlphanum ⟨b.toNat / 16, by omega⟩)
      · exact .inr (hexDigit_isAlphanum ⟨b.toNat % 16, by omega⟩)
  · rw [if_neg hescaped] at hc
    obtain rfl := List.mem_singleton.mp hc
    rw [not_or, Bool.not_eq_true] at hescaped
    exact .inr (isAlphanum_ofNat hescaped.2)

end Percent
