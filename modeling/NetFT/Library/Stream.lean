/-
# NetFT.Library.Stream — an output stream with its format state.

A C++ output stream keeps a base for numbers, a fill character and a width.  An insertion is padded to
the width, which it resets; the base and the fill stay until the next manipulator.
-/
import Mathlib.Data.Nat.Notation

namespace NetFT.Library

set_option autoImplicit false

/-- An output stream: its text, and how the next number is written. -/
structure Stream where
  text : List UInt8 := []
  hex : Bool := false
  width : ℕ := 0
  fill : UInt8 := 0x20
  deriving DecidableEq, Repr

namespace Stream

/-- `<<` of a character or a string. -/
def insert (output : Stream) (bytes : List UInt8) : Stream :=
  { output with text := output.text ++ bytes.leftpad output.width output.fill, width := 0 }

/-- Numbers in base 16 from here on. -/
def setHex (output : Stream) : Stream := { output with hex := true }

/-- Numbers in base 10 again. -/
def setDec (output : Stream) : Stream := { output with hex := false }

/-- The least width of the next insertion. -/
def setWidth (output : Stream) (width : ℕ) : Stream := { output with width }

/-- What fills it. -/
def setFill (output : Stream) (fill : UInt8) : Stream := { output with fill }

/-- The digits of a number. -/
def digits (base n : ℕ) : List UInt8 := (Nat.toDigits base n).map fun c => c.toNat.toUInt8

/-- `<<` of an unsigned number. -/
def insertNumber (output : Stream) (n : ℕ) : Stream :=
  output.insert (digits (if output.hex then 16 else 10) n)

/-- A digit of a number. -/
theorem mem_digits {base n : ℕ} (hbase : 1 < base) {b : UInt8} (hb : b ∈ digits base n) :
    ∃ k < base, b = (Nat.digitChar k).toNat.toUInt8 := by
  induction n using Nat.strongRecOn with
  | ind n ih =>
    obtain ⟨c, hc, rfl⟩ := List.mem_map.mp hb
    by_cases hlt : n < base
    · rw [Nat.toDigits_of_lt_base hlt, List.mem_singleton] at hc
      exact ⟨n, hlt, by rw [hc]⟩
    · rw [Nat.toDigits_of_base_le hbase (Nat.not_lt.mp hlt)] at hc
      rcases List.mem_append.mp hc with hc | hc
      · exact ih (n / base) (Nat.div_lt_self (by omega) hbase) (List.mem_map.mpr ⟨c, hc, rfl⟩)
      · rw [List.mem_singleton] at hc
        exact ⟨n % base, Nat.mod_lt n (by omega), by rw [hc]⟩

/-! ## Without padding -/

variable (text : List UInt8) (fill : UInt8)

@[simp] theorem insert_mk (hex : Bool) (bytes : List UInt8) :
    insert ⟨text, hex, 0, fill⟩ bytes = ⟨text ++ bytes, hex, 0, fill⟩ := by
  simp [insert, List.leftpad]

@[simp] theorem insertNumber_mk (n : ℕ) :
    insertNumber ⟨text, false, 0, fill⟩ n = ⟨text ++ digits 10 n, false, 0, fill⟩ := by
  simp [insertNumber]

/-- A padded number in hexadecimal, with the base restored after it. -/
@[simp] theorem hexadecimal_mk (hex : Bool) (width : ℕ) (fill' : UInt8) (n : ℕ) :
    ((setHex ⟨text, hex, 0, fill⟩ |>.setWidth width).setFill fill' |>.insertNumber n).setDec =
      ⟨text ++ (digits 16 n).leftpad width fill', false, 0, fill'⟩ := rfl

end Stream

end NetFT.Library
