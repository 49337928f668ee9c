/-
# NetFT.Library.Format — numbers as text.

The formats of a C++ stream: a number in base 10 or 16 padded to a width, and the two formats of a
floating-point number, `fixed` with a number of digits after the point, and `general`, which shows a
number of significant digits and takes the exponent out where it is small or large.  The exact value
is rounded to nearest, ties to even.
-/
import Mathlib.Data.Int.Log
import NetFT.Library.Binary64

namespace NetFT.Library.Format

set_option autoImplicit false

/-- A text with fill characters before it, up to a width. -/
def padLeft (width : ℕ) (fill : Char) (text : List Char) : List Char :=
  List.replicate (width - text.length) fill ++ text

/-- The sign of a number before its magnitude. -/
def signed (q : ℚ) (magnitude : List Char) : List Char :=
  if q < 0 then '-' :: magnitude else magnitude

/-- `std::fixed`. -/
def fixed (precision : ℕ) (q : ℚ) : List Char :=
  let scaled := (Double.roundHalfEven (|q| * 10 ^ precision)).toNat
  let digits := padLeft (precision + 1) '0' (Nat.toDigits 10 scaled)
  let whole := digits.take (digits.length - precision)
  let fraction := digits.drop (digits.length - precision)
  signed q (if precision = 0 then whole else whole ++ '.' :: fraction)

/-- A fraction without the zeros at its end, and no point if nothing is left. -/
def fraction (digits : List Char) : List Char :=
  match (digits.reverse.dropWhile (· = '0')).reverse with
  | [] => []
  | kept => '.' :: kept

/-- The digits of a positive number rounded to `precision` digits, and the exponent of the first. -/
def significant (precision : ℕ) (q : ℚ) : ℕ × ℤ :=
  let exponent := Int.log 10 q
  let digits := (Double.roundHalfEven (q / 10 ^ (exponent - precision + 1))).toNat
  if digits = 10 ^ precision then (10 ^ (precision - 1), exponent + 1) else (digits, exponent)

/-- `std::defaultfloat`, with `precision` significant digits. -/
def general (precision : ℕ) (q : ℚ) : List Char :=
  if q = 0 then ['0']
  else
    let (number, exponent) := significant precision |q|
    let digits := Nat.toDigits 10 number
    signed q <|
      if exponent < -4 ∨ precision ≤ exponent then
        digits.take 1 ++ fraction (digits.drop 1) ++
          'e' :: (if exponent < 0 then '-' else '+') ::
            padLeft 2 '0' (Nat.toDigits 10 exponent.natAbs)
      else if exponent < 0 then
        '0' :: fraction (List.replicate (exponent.natAbs - 1) '0' ++ digits)
      else
        digits.take (exponent.toNat + 1) ++ fraction (digits.drop (exponent.toNat + 1))

/-! ## The shape of a general number -/

theorem toDigits_head_ne_zero {n : ℕ} (hn : n ≠ 0) : (Nat.toDigits 10 n).head? ≠ some '0' := by
  induction n using Nat.strong_induction_on with
  | _ n ih =>
    by_cases hlt : n < 10
    · have hdigit : ∀ n < 10, n ≠ 0 → [n.digitChar].head? ≠ some '0' := by decide
      rw [Nat.toDigits_of_lt_base hlt]
      exact hdigit n hlt hn
    · rw [Nat.toDigits_of_base_le (by norm_num) (by omega),
        List.head?_append_of_ne_nil _ Nat.toDigits_ne_nil]
      exact ih (n / 10) (by omega) (by omega)

/-- A positive number has a significant digit. -/
theorem significant_ne_zero {precision : ℕ} (hprecision : 0 < precision) {q : ℚ} (hq : 0 < q) :
    (significant precision q).1 ≠ 0 := by
  unfold significant
  simp only
  split_ifs with hcarry
  · positivity
  · have hscaled : ((1 : ℤ) : ℚ) ≤ q / 10 ^ (Int.log 10 q - precision + 1) := by
      have hlog : (10 : ℚ) ^ Int.log 10 q ≤ q := by exact_mod_cast Int.zpow_log_le_self (by norm_num) hq
      rw [Int.cast_one, one_le_div (zpow_pos (by norm_num) _)]
      refine le_trans (zpow_le_zpow_right₀ (by norm_num) ?_) hlog
      omega
    have hround := Double.le_roundHalfEven hscaled
    simp only
    omega

/-- The digits after the point. -/
theorem fraction_eq (digits : List Char) : fraction digits = [] ∨
    ∃ kept, fraction digits = '.' :: kept ∧ kept ≠ [] ∧ ∀ c ∈ kept, c ∈ digits := by
  unfold fraction
  split
  · exact .inl rfl
  · rename_i kept hne
    refine .inr ⟨_, rfl, hne, fun c hc => ?_⟩
    exact List.mem_reverse.mp ((List.dropWhile_sublist _).subset (List.mem_reverse.mp hc))

/-- The whole part of a number: digits without a leading zero, or a zero. -/
def Whole (text : List Char) : Prop :=
  text = ['0'] ∨ text ≠ [] ∧ text.head? ≠ some '0' ∧ ∀ c ∈ text, c.isDigit = true

/-- A fraction, or nothing. -/
def Fraction (text : List Char) : Prop :=
  text = [] ∨ ∃ digits, text = '.' :: digits ∧ digits ≠ [] ∧ ∀ c ∈ digits, c.isDigit = true

/-- An exponent, or nothing. -/
def Exponent (text : List Char) : Prop :=
  text = [] ∨ ∃ sign digits, text = 'e' :: sign :: digits ∧ (sign = '-' ∨ sign = '+') ∧ digits ≠ [] ∧
    ∀ c ∈ digits, c.isDigit = true

theorem isDigit_toDigits {n : ℕ} {c : Char} (hc : c ∈ Nat.toDigits 10 n) : c.isDigit = true :=
  Nat.isDigit_of_mem_toDigits (by norm_num) le_rfl hc

theorem whole_toDigits (n : ℕ) : Whole (Nat.toDigits 10 n) := by
  by_cases hn : n = 0
  · subst hn
    exact .inl (Nat.toDigits_zero 10)
  · exact .inr ⟨Nat.toDigits_ne_nil, toDigits_head_ne_zero hn, fun c => isDigit_toDigits⟩

theorem fraction_shape {digits : List Char} (h : ∀ c ∈ digits, c.isDigit = true) :
    Fraction (fraction digits) := by
  rcases fraction_eq digits with hnil | ⟨kept, hkept, hne, hmem⟩
  · exact .inl hnil
  · exact .inr ⟨kept, hkept, hne, fun c hc => h c (hmem c hc)⟩

/-- The first digits of a number without a leading zero. -/
theorem whole_take {digits : List Char} {n : ℕ} (hne : digits ≠ []) (hhead : digits.head? ≠ some '0')
    (hdigits : ∀ c ∈ digits, c.isDigit = true) : Whole (digits.take (n + 1)) := by
  obtain ⟨d, digits, rfl⟩ := List.exists_cons_of_ne_nil hne
  refine .inr ⟨by simp, by simpa using hhead, fun c hc => hdigits c (List.mem_of_mem_take hc)⟩

/-- **The shape of a general number**: a sign, a whole part, and perhaps a fraction and an exponent. -/
theorem general_shape {precision : ℕ} (hprecision : 0 < precision) (q : ℚ) :
    ∃ whole fraction exponent, general precision q = signed q (whole ++ (fraction ++ exponent)) ∧
      Whole whole ∧ Fraction fraction ∧ Exponent exponent := by
  by_cases hq : q = 0
  · exact ⟨['0'], [], [], by simp [general, hq, signed], .inl rfl, .inl rfl, .inl rfl⟩
  have hsignificant := significant_ne_zero hprecision (abs_pos.mpr hq)
  rcases hparts : significant precision |q| with ⟨number, exponent⟩
  rw [hparts] at hsignificant
  simp only [general, if_neg hq, hparts]
  have hdigits : ∀ c ∈ Nat.toDigits 10 number, c.isDigit = true := fun c => isDigit_toDigits
  have hhead := toDigits_head_ne_zero hsignificant
  have hne : Nat.toDigits 10 number ≠ [] := Nat.toDigits_ne_nil
  have hdrop : ∀ n, Fraction (fraction ((Nat.toDigits 10 number).drop n)) :=
    fun n => fraction_shape fun c hc => hdigits c (List.mem_of_mem_drop hc)
  by_cases hlarge : exponent < -4 ∨ (precision : ℤ) ≤ exponent
  · rw [if_pos hlarge]
    refine ⟨_, _, _, by rw [List.append_assoc], whole_take hne hhead hdigits, hdrop 1, ?_⟩
    refine .inr ⟨_, _, rfl, (ite_eq_or_eq _ _ _), by simp [padLeft], fun c hc => ?_⟩
    rcases List.mem_append.mp hc with hc | hc
    · rw [List.eq_of_mem_replicate hc]
      rfl
    · exact isDigit_toDigits hc
  rw [if_neg hlarge]
  by_cases hsmall : exponent < 0
  · rw [if_pos hsmall]
    refine ⟨['0'], _, [], by rw [List.append_nil, List.singleton_append], .inl rfl,
      fraction_shape fun c hc => ?_, .inl rfl⟩
    rcases List.mem_append.mp hc with hc | hc
    · rw [List.eq_of_mem_replicate hc]
      rfl
    · exact hdigits c hc
  · rw [if_neg hsmall]
    exact ⟨_, _, [], by rw [List.append_nil], whole_take hne hhead hdigits, hdrop _, .inl rfl⟩

example : fixed 1 2000 = "2000.0".toList := by decide +kernel

example : general 17 (1 / 2 ^ 20) = "9.5367431640625e-07".toList := by decide +kernel

end NetFT.Library.Format
