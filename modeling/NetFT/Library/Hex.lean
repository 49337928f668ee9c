/-
# NetFT.Library.Hex — two digits for a byte.

`encode digits bytes` writes the high and the low half of each byte with the digits of an alphabet.
With sixteen different digits nothing is lost (`encode_injective`).
-/
import Mathlib.Data.List.Nodup
import Mathlib.Data.Nat.Bitwise

namespace NetFT.Library.Hex

set_option autoImplicit false

variable {α : Type*} [Inhabited α] (digits : List α)

/-- The digits of a byte, the high half first. -/
def encodeByte (byte : UInt8) : List α :=
  [digits[(byte >>> 4).toNat]!, digits[(byte &&& 0x0f).toNat]!]

/-- The two digits of each byte, one after the other. -/
def encode (bytes : List UInt8) : List α := bytes.flatMap (encodeByte digits)

theorem high_toNat (byte : UInt8) : (byte >>> 4).toNat = byte.toNat / 16 := by
  rw [UInt8.toNat_shiftRight]
  exact Nat.shiftRight_eq_div_pow _ 4

theorem low_toNat (byte : UInt8) : (byte &&& 0x0f).toNat = byte.toNat % 16 := by
  rw [UInt8.toNat_and]
  exact Nat.and_two_pow_sub_one_eq_mod _ 4

variable {digits}

/-- Every digit is one of the alphabet. -/
theorem mem_encode (hlength : digits.length = 16) {bytes : List UInt8} {d : α}
    (hd : d ∈ encode digits bytes) : d ∈ digits := by
  obtain ⟨byte, -, hd⟩ := List.mem_flatMap.mp hd
  have hhigh : (byte >>> 4).toNat < digits.length := by
    have hbyte := byte.toNat_lt
    rw [high_toNat, hlength]
    omega
  have hlow : (byte &&& 0x0f).toNat < digits.length := by
    rw [low_toNat, hlength]
    omega
  rw [encodeByte, List.mem_pair, getElem!_pos digits _ hhigh, getElem!_pos digits _ hlow] at hd
  rcases hd with rfl | rfl
  · exact List.getElem_mem hhigh
  · exact List.getElem_mem hlow

/-- Two different halves have different digits. -/
theorem digit_inj (hnodup : digits.Nodup) {i j : ℕ} (hi : i < digits.length) (hj : j < digits.length)
    (h : digits[i]! = digits[j]!) : i = j := by
  rw [getElem!_pos digits _ hi, getElem!_pos digits _ hj] at h
  exact (hnodup.getElem_inj_iff).mp h

/-- With sixteen different digits a byte can be read back. -/
theorem encodeByte_injective (hnodup : digits.Nodup) (hlength : digits.length = 16) :
    Function.Injective (encodeByte digits) := by
  intro a b h
  simp only [encodeByte, List.cons.injEq, and_true] at h
  have hbyte := a.toNat_lt
  have hbyte' := b.toNat_lt
  have hhigh := digit_inj hnodup (by rw [high_toNat]; omega) (by rw [high_toNat]; omega) h.1
  have hlow := digit_inj hnodup (by rw [low_toNat]; omega) (by rw [low_toNat]; omega) h.2
  rw [high_toNat, high_toNat] at hhigh
  rw [low_toNat, low_toNat] at hlow
  exact UInt8.toNat_inj.mp (by omega)

/-- **Different bytes have different digits.** -/
theorem encode_injective (hnodup : digits.Nodup) (hlength : digits.length = 16) :
    Function.Injective (encode digits) := by
  intro bytes
  induction bytes with
  | nil =>
    rintro (_ | ⟨b, bytes'⟩) h
    · rfl
    · cases h
  | cons a bytes ih =>
    rintro (_ | ⟨b, bytes'⟩) h
    · cases h
    · obtain ⟨hbyte, hbytes⟩ : encodeByte digits a = encodeByte digits b ∧
          encode digits bytes = encode digits bytes' := List.append_inj h rfl
      rw [encodeByte_injective hnodup hlength hbyte, ih hbytes]

end NetFT.Library.Hex
