/-
# NetFT.Library.Binary64 — IEEE 754 binary64 values over exact rationals.

A double is a finite rational, an infinity or a NaN.  An arithmetic result is the exact rational
result rounded to nearest, ties to even, at the precision that the magnitude allows (subnormals
included), and an infinity where the rounded value is out of range.

* `roundTo` rounds to any binary format, `nearest` to the doubles and `extended` to the 64-bit significands
  of the x87 `long double`; `abs_roundTo_sub_le` bounds the relative error.
* `ofRat_isFinite`: *finite closure*, an exact result of magnitude at most `maxFinite` rounds to a finite
  double.
-/
import Mathlib.Data.Int.Log
import Mathlib.Data.Rat.Floor
import Mathlib.Tactic.Linarith
import Mathlib.Tactic.NormNum
import Mathlib.Tactic.Positivity

namespace NetFT.Library

/-- A binary64 value. -/
inductive Double where
  | finite (value : ℚ)
  | infinite (negative : Bool)
  | nan
  deriving DecidableEq, Repr

namespace Double

/-- `std::isfinite`. -/
def isFinite : Double → Bool
  | .finite _ => true
  | _ => false

@[simp] theorem isFinite_finite (q : ℚ) : (finite q).isFinite = true := rfl
@[simp] theorem isFinite_infinite (b : Bool) : (infinite b).isFinite = false := rfl
@[simp] theorem isFinite_nan : nan.isFinite = false := rfl

/-- The largest finite double, `(2⁵³ - 1) · 2⁹⁷¹`. -/
def maxFinite : ℚ := (2 ^ 53 - 1) * 2 ^ 971

theorem maxFinite_lt : maxFinite < 2 ^ 1024 := by
  have hpow : (2 : ℚ) ^ 1024 = 2 ^ 53 * 2 ^ 971 := by rw [← pow_add]
  have hpos : (0 : ℚ) < 2 ^ 971 := pow_pos (by norm_num) _
  rw [maxFinite, hpow]
  exact mul_lt_mul_of_pos_right (by norm_num) hpos

/-- The exponent of the last place of a value of magnitude `|q|`; subnormals share `-1074`. -/
def ulpExponent (q : ℚ) : ℤ := max (Int.log 2 |q| - 52) (-1074)

/-- Round to an integer, ties to even. -/
def roundHalfEven (q : ℚ) : ℤ :=
  if q - ⌊q⌋ < 1 / 2 then ⌊q⌋
  else if 1 / 2 < q - ⌊q⌋ then ⌊q⌋ + 1
  else if ⌊q⌋ % 2 = 0 then ⌊q⌋
  else ⌊q⌋ + 1

/-- The double nearest to `q`. -/
def ofRat (q : ℚ) : Double :=
  let rounded : ℚ := roundHalfEven (q / 2 ^ ulpExponent q) * 2 ^ ulpExponent q
  if |rounded| ≤ maxFinite then .finite rounded else .infinite (decide (rounded < 0))

/-- `q` rounded to `precision` significant bits, with a last place of at least `2 ^ least`. -/
def roundTo (precision : ℕ) (least : ℤ) (q : ℚ) : ℚ :=
  let place := max (Int.log 2 |q| + 1 - precision) least
  roundHalfEven (q / 2 ^ place) * 2 ^ place

/-- The value of the double nearest to `q`, where that is finite. -/
def nearest (q : ℚ) : ℚ := roundTo 53 (-1074) q

/-- The value of the `long double` nearest to `q`: a significand of 64 bits. -/
def extended (q : ℚ) : ℚ := roundTo 64 (-16445) q

/-! ## Arithmetic and order -/

def neg : Double → Double
  | .finite a => .finite (-a)
  | .infinite negative => .infinite (!negative)
  | .nan => .nan

/-- `std::abs`. -/
def abs : Double → Double
  | .finite a => .finite |a|
  | .infinite _ => .infinite false
  | .nan => .nan

def add : Double → Double → Double
  | .finite a, .finite b => ofRat (a + b)
  | .infinite s, .finite _ => .infinite s
  | .finite _, .infinite t => .infinite t
  | .infinite s, .infinite t => if s = t then .infinite s else .nan
  | _, _ => .nan

def sub (x y : Double) : Double := x.add y.neg

def mul : Double → Double → Double
  | .finite a, .finite b => ofRat (a * b)
  | .infinite s, .finite b => if b = 0 then .nan else .infinite (s ^^ decide (b < 0))
  | .finite a, .infinite t => if a = 0 then .nan else .infinite (decide (a < 0) ^^ t)
  | .infinite s, .infinite t => .infinite (s ^^ t)
  | _, _ => .nan

/-- A zero divisor counts as positive. -/
def div : Double → Double → Double
  | .finite a, .finite b =>
    if b ≠ 0 then ofRat (a / b) else if a = 0 then .nan else .infinite (decide (a < 0))
  | .infinite s, .finite b => .infinite (s ^^ decide (b < 0))
  | .finite _, .infinite _ => .finite 0
  | _, _ => .nan

/-- `<`; no comparison with a NaN holds. -/
def lt : Double → Double → Bool
  | .finite a, .finite b => decide (a < b)
  | .infinite s, .finite _ => s
  | .finite _, .infinite t => !t
  | .infinite s, .infinite t => s && !t
  | _, _ => false

@[simp] theorem nan_lt (x : Double) : nan.lt x = false := rfl

@[simp] theorem lt_nan (x : Double) : x.lt nan = false := by cases x <;> rfl

/-! ## Rounding to an integer -/

theorem roundHalfEven_le {q : ℚ} {k : ℤ} (h : q ≤ k) : roundHalfEven q ≤ k := by
  have hfloor : ⌊q⌋ ≤ k := Int.floor_le_iff.mpr (by linarith)
  -- Rounding up to `⌊q⌋ + 1` needs a fractional part, so `⌊q⌋` is strictly below the bound.
  have hup : ¬ q - ⌊q⌋ < 1 / 2 → ⌊q⌋ + 1 ≤ k := by
    intro hfrac
    have hlt : (⌊q⌋ : ℚ) < k := by linarith
    exact_mod_cast hlt
  unfold roundHalfEven
  split_ifs with h₁ h₂ h₃
  · exact hfloor
  · exact hup h₁
  · exact hfloor
  · exact hup h₁

theorem le_roundHalfEven {q : ℚ} {k : ℤ} (h : (k : ℚ) ≤ q) : k ≤ roundHalfEven q := by
  have hfloor : k ≤ ⌊q⌋ := Int.le_floor.mpr h
  unfold roundHalfEven
  split_ifs <;> omega

theorem abs_roundHalfEven_le {q : ℚ} {k : ℤ} (h : |q| ≤ k) : |(roundHalfEven q : ℚ)| ≤ k := by
  obtain ⟨hlo, hhi⟩ := abs_le.mp h
  have hlo' : -k ≤ roundHalfEven q := le_roundHalfEven (by push_cast; exact hlo)
  rw [abs_le]
  exact ⟨by exact_mod_cast hlo', by exact_mod_cast roundHalfEven_le hhi⟩

theorem abs_roundHalfEven_sub_le (q : ℚ) : |(roundHalfEven q : ℚ) - q| ≤ 1 / 2 := by
  have hle := Int.floor_le q
  have hlt := Int.lt_floor_add_one q
  rw [abs_le]
  unfold roundHalfEven
  split_ifs with h₁ h₂ h₃
  all_goals
    push_cast
    constructor <;> linarith

/-! ## Rounding to a format -/

section

variable {precision : ℕ} {least : ℤ} {q : ℚ}

theorem roundTo_nonneg (h : 0 ≤ q) : 0 ≤ roundTo precision least q := by
  have hpos : (0 : ℚ) < 2 ^ max (Int.log 2 |q| + 1 - precision) least := zpow_pos (by norm_num) _
  have hround : 0 ≤ roundHalfEven (q / 2 ^ max (Int.log 2 |q| + 1 - precision) least) :=
    le_roundHalfEven (by rw [Int.cast_zero]; exact div_nonneg h hpos.le)
  exact mul_nonneg (by exact_mod_cast hround) hpos.le

theorem roundTo_nonpos (h : q ≤ 0) : roundTo precision least q ≤ 0 := by
  have hpos : (0 : ℚ) < 2 ^ max (Int.log 2 |q| + 1 - precision) least := zpow_pos (by norm_num) _
  have hround : roundHalfEven (q / 2 ^ max (Int.log 2 |q| + 1 - precision) least) ≤ 0 :=
    roundHalfEven_le (by rw [Int.cast_zero]; exact div_nonpos_of_nonpos_of_nonneg h hpos.le)
  exact mul_nonpos_of_nonpos_of_nonneg (by exact_mod_cast hround) hpos.le

/-- A rounding moves a value by at most half a last place. -/
theorem abs_roundTo_sub_le_place :
    |roundTo precision least q - q| ≤ 1 / 2 * 2 ^ max (Int.log 2 |q| + 1 - precision) least := by
  have hpos : (0 : ℚ) < 2 ^ max (Int.log 2 |q| + 1 - precision) least := zpow_pos (by norm_num) _
  have hscaled : roundTo precision least q - q =
      (roundHalfEven (q / 2 ^ max (Int.log 2 |q| + 1 - precision) least) -
        q / 2 ^ max (Int.log 2 |q| + 1 - precision) least) *
          2 ^ max (Int.log 2 |q| + 1 - precision) least := by
    rw [sub_mul, div_mul_cancel₀ _ hpos.ne']
    rfl
  rw [hscaled, abs_mul, abs_of_pos hpos]
  exact mul_le_mul_of_nonneg_right (abs_roundHalfEven_sub_le _) hpos.le

/-- **The error of a format**, relative to a value that is no subnormal of it. -/
theorem abs_roundTo_sub_le (h : (2 : ℚ) ^ (least + precision - 1) ≤ |q|) :
    |roundTo precision least q - q| ≤ |q| / 2 ^ precision := by
  have hq : 0 < |q| := lt_of_lt_of_le (zpow_pos (by norm_num) _) h
  have hlog : least + precision - 1 ≤ Int.log 2 |q| := by
    rw [← Int.zpow_le_iff_le_log (by norm_num) hq]
    exact_mod_cast h
  have hplace : max (Int.log 2 |q| + 1 - precision) least = Int.log 2 |q| + 1 - precision :=
    max_eq_left (by linarith)
  calc |roundTo precision least q - q|
      ≤ 1 / 2 * 2 ^ (Int.log 2 |q| + 1 - precision) := hplace ▸ abs_roundTo_sub_le_place
    _ = 2 ^ Int.log 2 |q| / 2 ^ precision := by
        rw [sub_eq_add_neg, zpow_add₀ (by norm_num), zpow_add₀ (by norm_num), zpow_neg, zpow_natCast]
        ring
    _ ≤ |q| / 2 ^ precision := by
        gcongr
        exact_mod_cast Int.zpow_log_le_self (by norm_num) hq

end

/-- The whole part of the nearest double is at most 2⁻⁵³ of a value above it. -/
theorem floor_nearest_le {q : ℚ} (h : 0 ≤ q) : (⌊nearest q⌋ : ℚ) ≤ q * (1 + 1 / 2 ^ 53) := by
  have habs : |q| = q := abs_of_nonneg h
  by_cases hsmall : q < 1 / 2
  · -- such a value rounds to less than one
    have hlog : Int.log 2 |q| ≤ 0 := by
      rcases h.eq_or_lt with rfl | hpos
      · simp
      · have hlt : |q| < ((2 : ℕ) : ℚ) ^ (1 : ℤ) := by
          rw [habs]
          norm_num
          linarith
        have := (Int.lt_zpow_iff_log_lt (by norm_num) (abs_pos.mpr hpos.ne')).mp hlt
        omega
    have hplace : (2 : ℚ) ^ max (Int.log 2 |q| + 1 - (53 : ℕ)) (-1074) ≤ 1 :=
      zpow_le_one_of_nonpos₀ (by norm_num) (max_le (by push_cast; linarith) (by norm_num))
    have herror : nearest q - q ≤ 1 / 2 * 1 :=
      (abs_le.mp abs_roundTo_sub_le_place).2.trans (mul_le_mul_of_nonneg_left hplace (by norm_num))
    have hzero : ⌊nearest q⌋ ≤ 0 := Int.floor_le_iff.mpr (by push_cast; linarith)
    calc (⌊nearest q⌋ : ℚ) ≤ 0 := by exact_mod_cast hzero
      _ ≤ q * (1 + 1 / 2 ^ 53) := mul_nonneg h (by norm_num)
  · have hnormal : (2 : ℚ) ^ ((-1074 : ℤ) + (53 : ℕ) - 1) ≤ |q| := by
      rw [habs]
      calc (2 : ℚ) ^ ((-1074 : ℤ) + (53 : ℕ) - 1)
          ≤ 2 ^ (-1 : ℤ) := zpow_le_zpow_right₀ (by norm_num) (by norm_num)
        _ ≤ q := by norm_num; linarith
    have herror : nearest q - q ≤ |q| / 2 ^ 53 := (abs_le.mp (abs_roundTo_sub_le hnormal)).2
    rw [habs] at herror
    calc (⌊nearest q⌋ : ℚ) ≤ nearest q := Int.floor_le _
      _ ≤ q * (1 + 1 / 2 ^ 53) := by linarith

/-! ## Finite closure -/

/-- A value in range has its last place at or below `2⁹⁷¹`. -/
theorem ulpExponent_le {q : ℚ} (h : |q| ≤ maxFinite) : ulpExponent q ≤ 971 := by
  rcases eq_or_ne q 0 with rfl | hq
  · simp [ulpExponent]
  have hlog : Int.log 2 |q| < 1024 := by
    rw [← Int.lt_zpow_iff_log_lt (by norm_num) (abs_pos.mpr hq)]
    calc |q| ≤ maxFinite := h
      _ < ((2 : ℕ) : ℚ) ^ (1024 : ℤ) := by exact_mod_cast maxFinite_lt
  unfold ulpExponent
  omega

/-- Scaled to its last place, every value is below `2⁵³`. -/
theorem abs_div_ulp_lt (q : ℚ) : |q / 2 ^ ulpExponent q| < 2 ^ 53 := by
  have hpos : (0 : ℚ) < 2 ^ ulpExponent q := zpow_pos (by norm_num) _
  rw [abs_div, abs_of_pos hpos, div_lt_iff₀ hpos]
  calc |q| < ((2 : ℕ) : ℚ) ^ (Int.log 2 |q| + 1) := Int.lt_zpow_succ_log_self (by norm_num) _
    _ ≤ 2 ^ (53 + ulpExponent q) := by
        push_cast
        apply zpow_le_zpow_right₀ (by norm_num)
        unfold ulpExponent
        omega
    _ = 2 ^ 53 * 2 ^ ulpExponent q := by
        rw [zpow_add₀ (by norm_num)]
        norm_num

/-- **Finite closure.**  An exact result in range rounds to a finite double. -/
theorem ofRat_isFinite {q : ℚ} (h : |q| ≤ maxFinite) : (ofRat q).isFinite = true := by
  have hpos : (0 : ℚ) < 2 ^ ulpExponent q := zpow_pos (by norm_num) _
  suffices hle :
      |(roundHalfEven (q / 2 ^ ulpExponent q) : ℚ) * 2 ^ ulpExponent q| ≤ maxFinite by
    simp only [ofRat, if_pos hle, isFinite_finite]
  rw [abs_mul, abs_of_pos hpos]
  rcases (ulpExponent_le h).lt_or_eq with hlt | heq
  · -- Below the top binade the rounded magnitude is at most `2⁵³` units of at most `2⁹⁷⁰`.
    have hround : |(roundHalfEven (q / 2 ^ ulpExponent q) : ℚ)| ≤ 2 ^ 53 := by
      have := abs_roundHalfEven_le (k := 2 ^ 53) (by push_cast; exact (abs_div_ulp_lt q).le)
      exact_mod_cast this
    have hulp : (2 : ℚ) ^ ulpExponent q ≤ 2 ^ (970 : ℤ) :=
      zpow_le_zpow_right₀ (by norm_num) (by omega)
    calc |(roundHalfEven (q / 2 ^ ulpExponent q) : ℚ)| * 2 ^ ulpExponent q
        ≤ 2 ^ 53 * 2 ^ (970 : ℤ) := by gcongr
      _ ≤ maxFinite := by
          have hpow : (2 : ℚ) ^ 971 = 2 * 2 ^ 970 := by rw [← pow_succ']
          have hpos : (0 : ℚ) < 2 ^ 970 := pow_pos (by norm_num) _
          rw [maxFinite, hpow, zpow_ofNat, ← mul_assoc]
          exact mul_le_mul_of_nonneg_right (by norm_num) hpos.le
  · -- In the top binade the scaled value is at most `2⁵³ - 1`, an integer.
    rw [heq] at hpos ⊢
    have hscaled : |q / 2 ^ (971 : ℤ)| ≤ ((2 ^ 53 - 1 : ℤ) : ℚ) := by
      rw [abs_div, abs_of_pos hpos, div_le_iff₀ hpos]
      calc |q| ≤ maxFinite := h
        _ = ((2 ^ 53 - 1 : ℤ) : ℚ) * 2 ^ (971 : ℤ) := by unfold maxFinite; norm_num
    calc |(roundHalfEven (q / 2 ^ (971 : ℤ)) : ℚ)| * 2 ^ (971 : ℤ)
        ≤ ((2 ^ 53 - 1 : ℤ) : ℚ) * 2 ^ (971 : ℤ) := by
          gcongr
          exact abs_roundHalfEven_le hscaled
      _ = maxFinite := by unfold maxFinite; norm_num

theorem le_maxFinite : (2 : ℚ) ^ 1023 ≤ maxFinite := by
  have hpow : (2 : ℚ) ^ 1023 = 2 ^ 52 * 2 ^ 971 := by rw [← pow_add]
  have hpos : (0 : ℚ) < 2 ^ 971 := pow_pos (by norm_num) _
  rw [maxFinite, hpow]
  exact mul_le_mul_of_nonneg_right (by norm_num) hpos.le

/-- The place of a double, where a format of 53 bits has it. -/
theorem ulpExponent_eq (q : ℚ) : ulpExponent q = max (Int.log 2 |q| + 1 - (53 : ℕ)) (-1074) := by
  have hplace : Int.log 2 |q| + 1 - (53 : ℕ) = Int.log 2 |q| - 52 := by
    push_cast
    ring
  rw [ulpExponent, hplace]

/-- Away from the subnormals and the end of the range, rounding moves a value by at most 2⁻⁵³ of it. -/
theorem ofRat_near {q : ℚ} (hlow : 1 / 2 ^ 1022 ≤ q) (hhigh : q ≤ 2 ^ 1023) :
    ∃ v, ofRat q = .finite v ∧ q * (1 - 1 / 2 ^ 53) ≤ v ∧ v ≤ q * (1 + 1 / 2 ^ 53) := by
  have habs : |q| = q := abs_of_nonneg (le_trans (by positivity) hlow)
  have hfinite : (ofRat q).isFinite = true := ofRat_isFinite (habs.symm ▸ hhigh.trans le_maxFinite)
  have hrounded : ofRat q = .finite (nearest q) := by
    simp only [ofRat, ulpExponent_eq] at hfinite ⊢
    split_ifs at hfinite ⊢
    · rfl
    · exact absurd hfinite (by simp)
  have hnormal : (2 : ℚ) ^ ((-1074 : ℤ) + (53 : ℕ) - 1) ≤ |q| := by
    rw [habs, show (-1074 : ℤ) + (53 : ℕ) - 1 = -(1022 : ℕ) from rfl, zpow_neg, zpow_natCast, ← one_div]
    exact hlow
  have herror : |nearest q - q| ≤ |q| / 2 ^ 53 := abs_roundTo_sub_le hnormal
  rw [habs] at herror
  obtain ⟨hbelow, habove⟩ := abs_le.mp herror
  exact ⟨_, hrounded, by linarith only [hbelow], by linarith only [habove]⟩

end Double

end NetFT.Library
