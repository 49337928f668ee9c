/-
# NetFT.Library.BigEndian — fixed-width big-endian numbers.

`toBytes k n` writes the low `k` bytes of `n`, the most significant first; `ofBytes` reads any string
of bytes as a number.  `ofBytes_toBytes` and `toBytes_ofBytes` say that they are inverse, up to the
width.
-/
import Mathlib.Data.Nat.ModEq
import Mathlib.Tactic.Positivity
import Mathlib.Tactic.Ring

namespace NetFT.Library.BigEndian

set_option autoImplicit false

/-- The last `k` bytes of a number, the most significant one first. -/
def toBytes : ℕ → ℕ → List UInt8
  | 0, _ => []
  | k + 1, n => UInt8.ofNat (n / 256 ^ k) :: toBytes k n

/-- The number that the bytes spell. -/
def ofBytes : List UInt8 → ℕ
  | [] => 0
  | b :: bs => b.toNat * 256 ^ bs.length + ofBytes bs

@[simp] theorem length_toBytes (k n : ℕ) : (toBytes k n).length = k := by
  induction k with
  | zero => rfl
  | succ k ih => rw [toBytes, List.length_cons, ih]

theorem ofBytes_lt (bs : List UInt8) : ofBytes bs < 256 ^ bs.length := by
  induction bs with
  | nil => exact Nat.one_pos
  | cons b bs ih =>
    have hb : b.toNat + 1 ≤ 256 := b.toNat_lt
    calc b.toNat * 256 ^ bs.length + ofBytes bs
        < b.toNat * 256 ^ bs.length + 256 ^ bs.length := Nat.add_lt_add_left ih _
      _ = (b.toNat + 1) * 256 ^ bs.length := by ring
      _ ≤ 256 * 256 ^ bs.length := Nat.mul_le_mul_right _ hb
      _ = 256 ^ (bs.length + 1) := by ring

/-- Reading back what was written gives the number, up to the width. -/
theorem ofBytes_toBytes (k n : ℕ) : ofBytes (toBytes k n) = n % 256 ^ k := by
  induction k with
  | zero => simp [toBytes, ofBytes, Nat.mod_one]
  | succ k ih =>
    rw [toBytes, ofBytes, length_toBytes, ih, Nat.mod_pow_succ, UInt8.toNat_ofNat']
    ring

/-- What stands above the width is not written. -/
theorem toBytes_add_mul (k m n : ℕ) : toBytes k (m * 256 ^ k + n) = toBytes k n := by
  induction k generalizing m with
  | zero => rfl
  | succ k ih =>
    have hsum : m * 256 ^ (k + 1) + n = m * 256 * 256 ^ k + n := by ring
    have hdiv : (m * 256 * 256 ^ k + n) / 256 ^ k = 256 * m + n / 256 ^ k := by
      rw [Nat.add_comm, Nat.add_mul_div_right _ _ (by positivity)]
      ring
    have hbyte : UInt8.ofNat (256 * m + n / 256 ^ k) = UInt8.ofNat (n / 256 ^ k) := by
      apply UInt8.toNat_inj.mp
      rw [UInt8.toNat_ofNat', UInt8.toNat_ofNat']
      omega
    rw [toBytes, toBytes, hsum, hdiv, hbyte, ih]

/-- Writing a number that was read gives its bytes. -/
theorem toBytes_ofBytes (bs : List UInt8) : toBytes bs.length (ofBytes bs) = bs := by
  induction bs with
  | nil => rfl
  | cons b bs ih =>
    have hdiv : (b.toNat * 256 ^ bs.length + ofBytes bs) / 256 ^ bs.length = b.toNat := by
      rw [Nat.add_comm, Nat.add_mul_div_right _ _ (by positivity),
        Nat.div_eq_of_lt (ofBytes_lt bs), Nat.zero_add]
    rw [ofBytes, List.length_cons, toBytes, hdiv, toBytes_add_mul, ih, UInt8.ofNat_toNat]

end NetFT.Library.BigEndian
