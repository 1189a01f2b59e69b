import Localview.JournalFile

/-! # Hexadecimal texts

`hex::encode` writes lower case; `hex::decode` also reads upper case.  A text without upper
case that decodes is the one text its bytes are written as.
-/
namespace Localview
open List

/-- A digit below 16, in lower case. -/
def hexDigit (value : Nat) : Char :=
  if value < 10 then Char.ofNat (48 + value) else Char.ofNat (87 + value)

/-- The value of a digit, of either case. -/
def hexValue (c : Char) : Option Nat :=
  if '0' ≤ c ∧ c ≤ '9' then some (c.toNat - 48)
  else if 'a' ≤ c ∧ c ≤ 'f' then some (c.toNat - 87)
  else if 'A' ≤ c ∧ c ≤ 'F' then some (c.toNat - 55)
  else none

def hexEncode : Bytes → List Char
  | [] => []
  | byte :: bytes =>
      hexDigit (byte.toNat / 16) :: hexDigit (byte.toNat % 16) :: hexEncode bytes

/-- `hex::decode`; `none` at an odd length or at another character. -/
def hexDecode : List Char → Option Bytes
  | [] => some []
  | [_] => none
  | high :: low :: rest =>
      match hexValue high, hexValue low, hexDecode rest with
      | some h, some l, some bytes => some (UInt8.ofNat (16 * h + l) :: bytes)
      | _, _, _ => none

def LowerCase (text : List Char) : Prop := ∀ c ∈ text, c.isUpper = false

instance (text : List Char) : Decidable (LowerCase text) :=
  inferInstanceAs (Decidable (∀ c ∈ text, c.isUpper = false))

theorem hexValue_lt {c : Char} {value : Nat} (h : hexValue c = some value) : value < 16 := by
  unfold hexValue at h
  split at h
  case isTrue hdigit =>
    have hle : c.toNat ≤ 57 := hdigit.2
    have := Option.some.inj h
    omega
  split at h
  case isTrue hletter =>
    have hle : c.toNat ≤ 102 := hletter.2
    have := Option.some.inj h
    omega
  split at h
  case isTrue hupper =>
    have hle : c.toNat ≤ 70 := hupper.2
    have := Option.some.inj h
    omega
  case isFalse => cases h

theorem hexValue_hexDigit {value : Nat} (h : value < 16) : hexValue (hexDigit value) = some value :=
  (by decide : ∀ value : Fin 16, hexValue (hexDigit value) = some value.val) ⟨value, h⟩

theorem isUpper_hexDigit {value : Nat} (h : value < 16) : (hexDigit value).isUpper = false :=
  (by decide : ∀ value : Fin 16, (hexDigit value).isUpper = false) ⟨value, h⟩

/-- In lower case a value has one digit. -/
theorem hexDigit_of_hexValue {c : Char} {value : Nat} (hlower : c.isUpper = false)
    (h : hexValue c = some value) : hexDigit value = c := by
  unfold hexValue at h
  split at h
  case isTrue hdigit =>
    have hge : 48 ≤ c.toNat := hdigit.1
    have hle : c.toNat ≤ 57 := hdigit.2
    have hvalue := Option.some.inj h
    rw [hexDigit, if_pos (by omega), show 48 + value = c.toNat by omega, Char.ofNat_toNat]
  split at h
  case isTrue hletter =>
    have hge : 97 ≤ c.toNat := hletter.1
    have hvalue := Option.some.inj h
    rw [hexDigit, if_neg (by omega), show 87 + value = c.toNat by omega, Char.ofNat_toNat]
  split at h
  case isTrue hupper =>
    have hge : 'A' ≤ c := hupper.1
    have hle : c ≤ 'Z' := Nat.le_trans hupper.2 (by decide)
    have hup : c.isUpper = true := decide_eq_true ⟨hge, hle⟩
    exact absurd (hlower.symm.trans hup) Bool.false_ne_true
  case isFalse => cases h

theorem hexDecode_hexEncode (bytes : Bytes) : hexDecode (hexEncode bytes) = some bytes := by
  induction bytes with
  | nil => rfl
  | cons byte bytes ih =>
    have hlt := byte.toNat_lt
    rw [hexEncode, hexDecode, hexValue_hexDigit (by omega), hexValue_hexDigit (by omega), ih]
    simp only [Nat.div_add_mod, UInt8.ofNat_toNat]

theorem lowerCase_hexEncode (bytes : Bytes) : LowerCase (hexEncode bytes) := by
  induction bytes with
  | nil => exact fun c hmem => absurd hmem (not_mem_nil)
  | cons byte bytes ih =>
    have hlt := byte.toNat_lt
    intro c hmem
    rw [hexEncode, mem_cons, mem_cons] at hmem
    obtain rfl | rfl | hmem := hmem
    · exact isUpper_hexDigit (by omega)
    · exact isUpper_hexDigit (by omega)
    · exact ih c hmem

/-- **One text in lower case for the bytes.** -/
theorem hexEncode_of_hexDecode {text : List Char} {bytes : Bytes} (hlower : LowerCase text)
    (h : hexDecode text = some bytes) : hexEncode bytes = text := by
  induction text using hexDecode.induct generalizing bytes with
  | case1 =>
    rw [← Option.some.inj h]
    rfl
  | case2 c => cases h
  | case3 high low rest hv lv tail hrest hlow hhigh ih =>
    rw [hexDecode, hhigh, hlow, hrest] at h
    have hhlt := hexValue_lt hhigh
    have hllt := hexValue_lt hlow
    have hbyte : (UInt8.ofNat (16 * hv + lv)).toNat = 16 * hv + lv := by
      rw [UInt8.toNat_ofNat']
      omega
    rw [← Option.some.inj h, hexEncode, hbyte, show (16 * hv + lv) / 16 = hv by omega,
      show (16 * hv + lv) % 16 = lv by omega,
      hexDigit_of_hexValue (hlower high (by simp)) hhigh,
      hexDigit_of_hexValue (hlower low (by simp)) hlow,
      ih (fun c hmem => hlower c (by simp [hmem])) hrest]
  | case4 high low rest hnone ih =>
    rw [hexDecode] at h
    split at h
    case h_1 hv lv tail hhigh hlow hrest => exact absurd hrest (hnone hv lv tail hhigh hlow)
    case h_2 => cases h

end Localview
