/-
# NetFT.Library.Decimal — decimal numbers read back.

`read` is what `strtod` makes of a decimal text as a whole: a sign, digits with a point among them, and
an exponent.  It gives the exact value, before it is rounded to a double.

* `read_general`: a number in the general format reads as the number rounded to that many digits.
* `Double.ofRat_of_close`: what is closer to a double than `5 · 10⁻¹⁷` of it rounds to it.
* **`ofRat_read_general`**: so 17 digits are enough for every double.
-/
import NetFT.Library.Format
import Mathlib.Tactic.FieldSimp
import Mathlib.Tactic.Ring

namespace NetFT.Library

set_option autoImplicit false

namespace Decimal

/-! ## Reading -/

/-- The parts of a number in a text. -/
structure Numeral where
  negative : Bool
  whole : List Char
  fraction : List Char
  exponent : ℤ
  deriving DecidableEq, Repr

def signOf (negative : Bool) : ℚ := if negative then -1 else 1

def Numeral.value (n : Numeral) : ℚ :=
  signOf n.negative * (Nat.ofDigitChars 10 (n.whole ++ n.fraction) 0 * 10 ^ (n.exponent - n.fraction.length))

def readSign : List Char → Bool × List Char
  | '-' :: text => (true, text)
  | '+' :: text => (false, text)
  | text => (false, text)

/-- At least one digit. -/
def isDigits (text : List Char) : Bool := text ≠ [] && text.all Char.isDigit

/-- Nothing, or an exponent. -/
def readExponent : List Char → Option ℤ
  | [] => some 0
  | e :: text =>
    let (negative, digits) := readSign text
    if (e = 'e' ∨ e = 'E') ∧ isDigits digits = true then
      some ((if negative then -1 else 1) * Nat.ofDigitChars 10 digits 0)
    else none

/-- The digits after a point, and what follows them. -/
def readFraction : List Char → List Char × List Char
  | '.' :: text => (text.takeWhile Char.isDigit, text.dropWhile Char.isDigit)
  | text => ([], text)

def readNumeral (text : List Char) : Option Numeral :=
  let (negative, text) := readSign text
  let whole := text.takeWhile Char.isDigit
  let (fraction, rest) := readFraction (text.dropWhile Char.isDigit)
  if whole ++ fraction = [] then none
  else (readExponent rest).map fun exponent => { negative, whole, fraction, exponent }

/-- The exact value of a decimal text. -/
def read (text : List Char) : Option ℚ := (readNumeral text).map (·.value)

/-! ## The grammar -/

inductive SignText : List Char → Bool → Prop where
  | none : SignText [] false
  | plus : SignText ['+'] false
  | minus : SignText ['-'] true

/-- Nothing, or a point and digits. -/
inductive FractionText : List Char → List Char → Prop where
  | none : FractionText [] []
  | point {digits : List Char} : (∀ c ∈ digits, c.isDigit = true) → FractionText ('.' :: digits) digits

/-- Nothing, or an exponent with its value. -/
inductive ExponentText : List Char → ℤ → Prop where
  | none : ExponentText [] 0
  | some {e : Char} {sign digits : List Char} {negative : Bool} : e = 'e' ∨ e = 'E' →
      SignText sign negative → isDigits digits = true →
      ExponentText (e :: (sign ++ digits))
        ((if negative then -1 else 1) * Nat.ofDigitChars 10 digits 0)

/-- **The texts that are a number**, with its parts. -/
inductive NumeralText : List Char → Numeral → Prop where
  | mk {sign whole point fraction exponentText : List Char} {negative : Bool} {exponent : ℤ} :
      SignText sign negative → (∀ c ∈ whole, c.isDigit = true) → FractionText point fraction →
      whole ++ fraction ≠ [] → ExponentText exponentText exponent →
      NumeralText (sign ++ (whole ++ (point ++ exponentText))) { negative, whole, fraction, exponent }

theorem takeWhile_dropWhile_append {p : Char → Bool} {run rest : List Char} (hrun : ∀ c ∈ run, p c = true)
    (hrest : ∀ c ∈ rest.head?, p c = false) :
    (run ++ rest).takeWhile p = run ∧ (run ++ rest).dropWhile p = rest := by
  rw [List.takeWhile_append_of_pos hrun, List.dropWhile_append_of_pos hrun]
  cases rest with
  | nil => simp
  | cons c rest => simp [hrest c rfl]

theorem mem_takeWhile_isDigit {text : List Char} {c : Char} (hc : c ∈ text.takeWhile Char.isDigit) :
    c.isDigit = true :=
  List.all_eq_true.mp List.all_takeWhile c hc

theorem readSign_append {sign rest : List Char} {negative : Bool} (hsign : SignText sign negative)
    (hrest : ∀ c ∈ rest.head?, c ≠ '-' ∧ c ≠ '+') : readSign (sign ++ rest) = (negative, rest) := by
  cases hsign with
  | plus => rfl
  | minus => rfl
  | none =>
    rw [List.nil_append]
    unfold readSign
    split
    · exact absurd rfl (hrest '-' rfl).1
    · exact absurd rfl (hrest '+' rfl).2
    · rfl

theorem signText_of_readSign (text : List Char) :
    ∃ sign, SignText sign (readSign text).1 ∧ text = sign ++ (readSign text).2 := by
  unfold readSign
  split
  · exact ⟨_, .minus, rfl⟩
  · exact ⟨_, .plus, rfl⟩
  · exact ⟨_, .none, rfl⟩

theorem ne_sign_of_isDigit {c : Char} (h : c.isDigit = true) : c ≠ '-' ∧ c ≠ '+' := by
  constructor <;> rintro rfl <;> cases h

theorem readExponent_eq_some_iff {text : List Char} {exponent : ℤ} :
    readExponent text = some exponent ↔ ExponentText text exponent := by
  constructor
  · intro h
    cases text with
    | nil =>
      cases h
      exact .none
    | cons e text =>
      simp only [readExponent, Option.ite_none_right_eq_some, Option.some.injEq] at h
      obtain ⟨⟨he, hdigits⟩, hvalue⟩ := h
      obtain ⟨sign, hsign, htext⟩ := signText_of_readSign text
      have hexponent := ExponentText.some he hsign hdigits
      rwa [← htext, hvalue] at hexponent
  · intro h
    cases h with
    | none => rfl
    | @some e sign digits negative he hsign hdigits =>
      have hread : readSign (sign ++ digits) = (negative, digits) := by
        apply readSign_append hsign
        intro c hc
        have hall := (Bool.and_eq_true _ _ ▸ hdigits).2
        exact ne_sign_of_isDigit (List.all_eq_true.mp hall c (List.mem_of_mem_head? hc))
      simp only [readExponent, hread]
      exact if_pos ⟨he, hdigits⟩

theorem exponentText_head {text : List Char} {exponent : ℤ} (h : ExponentText text exponent) :
    ∀ c ∈ text.head?, c.isDigit = false ∧ c ≠ '.' := by
  cases h with
  | none => simp
  | some he =>
    rintro c ⟨⟩
    rcases he with rfl | rfl <;> decide

theorem readFraction_append {point fraction rest : List Char} (h : FractionText point fraction)
    (hrest : ∀ c ∈ rest.head?, c.isDigit = false ∧ c ≠ '.') :
    readFraction (point ++ rest) = (fraction, rest) := by
  cases h with
  | none =>
    rw [List.nil_append]
    unfold readFraction
    split
    · exact absurd rfl (hrest '.' rfl).2
    · rfl
  | point hdigits =>
    obtain ⟨htake, hdrop⟩ := takeWhile_dropWhile_append hdigits fun c hc => (hrest c hc).1
    simp only [List.cons_append, readFraction, htake, hdrop]

theorem fractionText_of_readFraction (text : List Char) :
    ∃ point, FractionText point (readFraction text).1 ∧ text = point ++ (readFraction text).2 := by
  unfold readFraction
  split
  · refine ⟨_, .point fun c => mem_takeWhile_isDigit, ?_⟩
    rw [List.cons_append, List.takeWhile_append_dropWhile]
  · exact ⟨_, .none, rfl⟩

/-- **`readNumeral` reads the grammar.** -/
theorem readNumeral_eq_some_iff {text : List Char} {n : Numeral} :
    readNumeral text = some n ↔ NumeralText text n := by
  constructor
  · intro h
    simp only [readNumeral] at h
    split_ifs at h with hne
    obtain ⟨exponent, hexponent, rfl⟩ := Option.map_eq_some_iff.mp h
    obtain ⟨sign, hsign, htext⟩ := signText_of_readSign text
    obtain ⟨point, hpoint, hrest⟩ :=
      fractionText_of_readFraction ((readSign text).2.dropWhile Char.isDigit)
    have hparts : text = sign ++ ((readSign text).2.takeWhile Char.isDigit ++
        (point ++ (readFraction ((readSign text).2.dropWhile Char.isDigit)).2)) := by
      rw [← hrest, List.takeWhile_append_dropWhile]
      exact htext
    have hnumeral := NumeralText.mk hsign (fun c => mem_takeWhile_isDigit) hpoint hne
      (readExponent_eq_some_iff.mp hexponent)
    rwa [← hparts] at hnumeral
  · intro h
    cases h with
    | @mk sign whole point fraction exponentText negative exponent hsign hwhole hpoint hne hexponent =>
      have hhead := exponentText_head hexponent
      -- What follows the whole part is no digit, and no sign follows the sign.
      have hafter : ∀ c ∈ (point ++ exponentText).head?, c.isDigit = false := by
        intro c hc
        cases hpoint with
        | none => exact (hhead c hc).1
        | point =>
          cases hc
          rfl
      have hfirst : ∀ c ∈ (whole ++ (point ++ exponentText)).head?, c ≠ '-' ∧ c ≠ '+' := by
        intro c hc
        cases whole with
        | cons d whole =>
          cases hc
          exact ne_sign_of_isDigit (hwhole _ List.mem_cons_self)
        | nil =>
          cases hpoint with
          | none => exact absurd rfl hne
          | point =>
            cases hc
            decide
      obtain ⟨htake, hdrop⟩ := takeWhile_dropWhile_append hwhole hafter
      simp only [readNumeral, readSign_append hsign hfirst, htake, hdrop,
        readFraction_append hpoint hhead, if_neg hne, readExponent_eq_some_iff.mpr hexponent, Option.map_some]

theorem read_eq_some_iff {text : List Char} {q : ℚ} :
    read text = some q ↔ ∃ n, NumeralText text n ∧ n.value = q := by
  simp only [read, Option.map_eq_some_iff, readNumeral_eq_some_iff]

end Decimal

/-! ## Rounding -/

namespace Double

theorem roundHalfEven_eq_of_abs_sub_lt {q : ℚ} {k : ℤ} (h : |q - k| < 1 / 2) : roundHalfEven q = k := by
  have hround := abs_roundHalfEven_sub_le q
  have hlt : |((roundHalfEven q - k : ℤ) : ℚ)| < 1 := by
    calc |((roundHalfEven q - k : ℤ) : ℚ)| = |((roundHalfEven q : ℚ) - q) + (q - k)| := by
          push_cast
          congr 1
          ring
      _ ≤ |(roundHalfEven q : ℚ) - q| + |q - k| := abs_add_le _ _
      _ < 1 := by linarith
  have habs : |roundHalfEven q - k| < 1 := by exact_mod_cast hlt
  rw [Int.abs_lt_one_iff] at habs
  omega

/-- A finite double is a whole number of its last places. -/
theorem eq_mul_of_ofRat {x : ℚ} (h : ofRat x = .finite x) :
    |x| ≤ maxFinite ∧ ∃ m : ℤ, x = m * 2 ^ ulpExponent x ∧ |m| < 2 ^ 53 := by
  simp only [ofRat] at h
  split_ifs at h with hrange
  have hvalue := Double.finite.inj h
  rw [hvalue] at hrange
  refine ⟨hrange, _, hvalue.symm, ?_⟩
  have hpos : (2 : ℚ) ^ ulpExponent x ≠ 0 := zpow_ne_zero _ (by norm_num)
  have hscaled : x / 2 ^ ulpExponent x = roundHalfEven (x / 2 ^ ulpExponent x) := by
    rw [div_eq_iff hpos]
    exact hvalue.symm
  have hlt := abs_div_ulp_lt x
  rw [hscaled] at hlt
  exact_mod_cast hlt

/-- In units of the last place of `y`, what is a whole number of them and close to `y`. -/
theorem ofRat_of_units {x y : ℚ} {k : ℤ} (hrange : |x| ≤ maxFinite) (hx : x = k * 2 ^ ulpExponent y)
    (hk : |k| ≤ 2 ^ 53) (hclose : |y - x| ≤ 5 / 10 ^ 17 * |x|) : ofRat y = .finite x := by
  have hpos : (0 : ℚ) < 2 ^ ulpExponent y := zpow_pos (by norm_num) _
  have hk' : |(k : ℚ)| ≤ 2 ^ 53 := by exact_mod_cast hk
  have hunits : |y / 2 ^ ulpExponent y - k| < 1 / 2 := by
    have hscaled : y / 2 ^ ulpExponent y - k = (y - x) / 2 ^ ulpExponent y := by
      rw [hx]
      field_simp
    rw [hscaled, abs_div, abs_of_pos hpos, div_lt_iff₀ hpos]
    calc |y - x| ≤ 5 / 10 ^ 17 * |x| := hclose
      _ = 5 / 10 ^ 17 * |(k : ℚ)| * 2 ^ ulpExponent y := by
          rw [mul_assoc, hx, abs_mul, abs_of_pos hpos]
      _ < 1 / 2 * 2 ^ ulpExponent y := by
          apply mul_lt_mul_of_pos_right _ hpos
          calc 5 / 10 ^ 17 * |(k : ℚ)| ≤ 5 / 10 ^ 17 * 2 ^ 53 := by gcongr
            _ < 1 / 2 := by norm_num
  simp only [ofRat, roundHalfEven_eq_of_abs_sub_lt hunits, ← hx, if_pos hrange]

/-- The last place of a value below a power of two. -/
theorem ulpExponent_le_of_lt {y : ℚ} {u : ℤ} (hy : y ≠ 0) (hu : -1074 ≤ u) (h : |y| < 2 ^ (53 + u)) :
    ulpExponent y ≤ u := by
  have hlog : Int.log 2 |y| < 53 + u := by
    rw [← Int.lt_zpow_iff_log_lt (by norm_num) (abs_pos.mpr hy)]
    exact_mod_cast h
  unfold ulpExponent
  omega

/-- **What is close to a double rounds to it**, on either side of a power of two. -/
theorem ofRat_of_close {x y : ℚ} (hx : ofRat x = .finite x) (hclose : |y - x| ≤ 5 / 10 ^ 17 * |x|) :
    ofRat y = .finite x := by
  obtain ⟨hrange, m, hm, hbound⟩ := eq_mul_of_ofRat hx
  by_cases hzero : x = 0
  · have hy : y = x := by
      rw [hzero, abs_zero, mul_zero] at hclose
      linarith [abs_nonpos_iff.mp hclose]
    rwa [hy]
  have hxpos : 0 < |x| := abs_pos.mpr hzero
  have hlow : |x| - 5 / 10 ^ 17 * |x| ≤ |y| := by
    have := abs_sub_abs_le_abs_sub x y
    rw [abs_sub_comm] at this
    linarith
  have hhigh : |y| ≤ |x| + 5 / 10 ^ 17 * |x| := by
    have := abs_sub_abs_le_abs_sub y x
    linarith
  have hy : y ≠ 0 := by
    rintro rfl
    rw [abs_zero] at hlow
    linarith
  have hu : -1074 ≤ ulpExponent x := le_max_right _ _
  have hunit : (0 : ℚ) < 2 ^ ulpExponent x := zpow_pos (by norm_num) _
  have habs : |x| = |m| * 2 ^ ulpExponent x := by
    conv_lhs => rw [hm]
    rw [abs_mul, abs_of_pos hunit, Int.cast_abs]
  have hmle : ((|m| : ℤ) : ℚ) ≤ 2 ^ 53 - 1 := by
    have hle : |m| ≤ 2 ^ 53 - 1 := by omega
    exact_mod_cast hle
  -- The next power of two is out of reach from below.
  have hle : ulpExponent y ≤ ulpExponent x := by
    apply ulpExponent_le_of_lt hy hu
    rw [zpow_add₀ (by norm_num), zpow_ofNat]
    calc |y| ≤ |x| + 5 / 10 ^ 17 * |x| := hhigh
      _ = (|m| + 5 / 10 ^ 17 * |m|) * 2 ^ ulpExponent x := by rw [habs]; ring
      _ < 2 ^ 53 * 2 ^ ulpExponent x := by
          apply mul_lt_mul_of_pos_right _ hunit
          linarith
  obtain ⟨n, hn⟩ := Int.le.dest hle
  have hsplit : (2 : ℚ) ^ ulpExponent x = 2 ^ n * 2 ^ ulpExponent y := by
    rw [← hn, zpow_add₀ (by norm_num), zpow_natCast, mul_comm]
  obtain ⟨k, hk⟩ : ∃ k : ℤ, x = k * 2 ^ ulpExponent y := by
    refine ⟨m * 2 ^ n, ?_⟩
    push_cast
    rw [mul_assoc, ← hsplit]
    exact hm
  have hpos : (0 : ℚ) < 2 ^ ulpExponent y := zpow_pos (by norm_num) _
  have hkabs : |x| = |k| * 2 ^ ulpExponent y := by
    conv_lhs => rw [hk]
    rw [abs_mul, abs_of_pos hpos, Int.cast_abs]
  have hlt : ((|k| : ℤ) : ℚ) < 2 ^ 53 + 1 := by
    have hbelow := abs_div_ulp_lt y
    rw [abs_div, abs_of_pos hpos, div_lt_iff₀ hpos] at hbelow
    have hunits : (((|k| : ℤ) : ℚ) - 5 / 10 ^ 17 * ((|k| : ℤ) : ℚ)) * 2 ^ ulpExponent y <
        2 ^ 53 * 2 ^ ulpExponent y := by
      calc _ = |x| - 5 / 10 ^ 17 * |x| := by
            rw [hkabs]
            ring
        _ < 2 ^ 53 * 2 ^ ulpExponent y := hlow.trans_lt hbelow
    linarith [lt_of_mul_lt_mul_right hunits hpos.le]
  have hkle : |k| ≤ 2 ^ 53 := by
    have hlt' : |k| < 2 ^ 53 + 1 := by exact_mod_cast hlt
    omega
  exact ofRat_of_units hrange hk hkle hclose

/-- **Rounding a second time changes nothing.** -/
theorem ofRat_of_ofRat {q x : ℚ} (h : ofRat q = .finite x) : ofRat x = .finite x := by
  simp only [ofRat] at h
  split_ifs at h with hrange
  have hx := Double.finite.inj h
  rw [hx] at hrange
  obtain ⟨m, hm⟩ : ∃ m, m = roundHalfEven (q / 2 ^ ulpExponent q) := ⟨_, rfl⟩
  rw [← hm] at hx
  have hunit : (0 : ℚ) < 2 ^ ulpExponent q := zpow_pos (by norm_num) _
  have hbound : |m| ≤ 2 ^ 53 := by
    have hle : |(m : ℚ)| ≤ ((2 ^ 53 : ℤ) : ℚ) := by
      rw [hm]
      apply abs_roundHalfEven_le
      push_cast
      exact (abs_div_ulp_lt q).le
    exact_mod_cast hle
  have habs : |x| = |m| * 2 ^ ulpExponent q := by
    rw [← hx, abs_mul, abs_of_pos hunit, Int.cast_abs]
  by_cases hzero : x = 0
  · subst hzero
    norm_num [ofRat, roundHalfEven, maxFinite]
  suffices hunits : ∃ k : ℤ, x = k * 2 ^ ulpExponent x by
    obtain ⟨k, hk⟩ := hunits
    have hpos : (0 : ℚ) < 2 ^ ulpExponent x := zpow_pos (by norm_num) _
    have hlt := abs_div_ulp_lt x
    have hscaled : x / 2 ^ ulpExponent x = k := by
      rw [div_eq_iff hpos.ne']
      exact hk
    rw [hscaled] at hlt
    have hle : |k| ≤ 2 ^ 53 := by exact_mod_cast hlt.le
    exact ofRat_of_units hrange hk hle (by rw [sub_self, abs_zero]; positivity)
  have hmin : -1074 ≤ ulpExponent q := le_max_right _ _
  rcases hbound.lt_or_eq with hlt | heq
  · have hle : ulpExponent x ≤ ulpExponent q := by
      apply ulpExponent_le_of_lt hzero hmin
      rw [zpow_add₀ (by norm_num), habs]
      apply mul_lt_mul_of_pos_right _ hunit
      exact_mod_cast hlt
    obtain ⟨n, hn⟩ := Int.le.dest hle
    refine ⟨m * 2 ^ n, ?_⟩
    rw [← hn, zpow_add₀ (by norm_num), zpow_natCast] at hx
    apply hx.symm.trans
    rw [Int.cast_mul, Int.cast_pow, Int.cast_ofNat]
    ring
  · -- Rounded up to a power of two, where the last place is one higher.
    have hlog : Int.log 2 |x| = 53 + ulpExponent q := by
      have hpower : |x| = ((2 : ℕ) : ℚ) ^ (53 + ulpExponent q) := by
        rw [habs, heq, Nat.cast_ofNat, zpow_add₀ (by norm_num)]
        norm_num
      rw [hpower, Int.log_zpow (by norm_num)]
    have hulp : ulpExponent x = ulpExponent q + 1 := by
      unfold ulpExponent at hmin hlog ⊢
      omega
    obtain ⟨k, hk⟩ : ∃ k, m = k * 2 := by
      have heven : m = 2 ^ 53 ∨ m = -2 ^ 53 := eq_or_eq_neg_of_abs_eq heq
      rcases heven with heven | heven
      · exact ⟨2 ^ 52, by rw [heven]; norm_num⟩
      · exact ⟨-2 ^ 52, by rw [heven]; norm_num⟩
    refine ⟨k, ?_⟩
    rw [hulp, zpow_add₀ (by norm_num)]
    apply hx.symm.trans
    rw [hk, Int.cast_mul]
    ring

end Double

namespace Decimal

/-! ## A number of digits -/

/-- A positive number has all its digits. -/
theorem significant_bounds {precision : ℕ} (hprecision : 0 < precision) {q : ℚ} (hq : 0 < q) :
    10 ^ (precision - 1) ≤ (Format.significant precision q).1 ∧
      (Format.significant precision q).1 < 10 ^ precision := by
  have hpos : (0 : ℚ) < 10 ^ (Int.log 10 q - precision + 1) := zpow_pos (by norm_num) _
  have hlow : (10 : ℚ) ^ Int.log 10 q ≤ q := by exact_mod_cast Int.zpow_log_le_self (by norm_num) hq
  have hhigh : q < (10 : ℚ) ^ (Int.log 10 q + 1) := by
    exact_mod_cast Int.lt_zpow_succ_log_self (b := 10) (by norm_num) q
  have hlow' : ((10 ^ (precision - 1) : ℤ) : ℚ) ≤ q / 10 ^ (Int.log 10 q - precision + 1) := by
    rw [le_div_iff₀ hpos]
    push_cast
    have hexponent : ((precision - 1 : ℕ) : ℤ) + (Int.log 10 q - precision + 1) = Int.log 10 q := by omega
    rw [← zpow_natCast, ← zpow_add₀ (by norm_num), hexponent]
    exact hlow
  have hhigh' : q / 10 ^ (Int.log 10 q - precision + 1) ≤ ((10 ^ precision : ℤ) : ℚ) := by
    rw [div_le_iff₀ hpos]
    push_cast
    have hexponent : (precision : ℤ) + (Int.log 10 q - precision + 1) = Int.log 10 q + 1 := by ring
    rw [← zpow_natCast, ← zpow_add₀ (by norm_num), hexponent]
    exact hhigh.le
  have hge := Double.le_roundHalfEven hlow'
  have hle := Double.roundHalfEven_le hhigh'
  unfold Format.significant
  simp only
  split_ifs with hcarry
  · exact ⟨le_rfl, Nat.pow_lt_pow_right (by norm_num) (by omega)⟩
  · zify
    rw [Int.toNat_of_nonneg (le_trans (by positivity) hge)]
    refine ⟨hge, lt_of_le_of_ne hle fun h => hcarry ?_⟩
    rw [h]
    exact_mod_cast Int.toNat_natCast (10 ^ precision)

/-- What a number of digits leaves of a number. -/
def rounded (precision : ℕ) (q : ℚ) : ℚ :=
  if q = 0 then 0
  else
    signOf (decide (q < 0)) * ((Format.significant precision |q|).1 *
      10 ^ ((Format.significant precision |q|).2 - precision + 1))

/-- The digits of a positive number are off by half a unit of the last. -/
theorem abs_significant_sub_le {precision : ℕ} (hprecision : 0 < precision) {q : ℚ} (hq : 0 < q) :
    |((Format.significant precision q).1 : ℚ) * 10 ^ ((Format.significant precision q).2 - precision + 1) -
      q| ≤ 1 / 2 * 10 ^ (Int.log 10 q - precision + 1) := by
  have hpos : (0 : ℚ) < 10 ^ (Int.log 10 q - precision + 1) := zpow_pos (by norm_num) _
  have hnonneg : 0 ≤ Double.roundHalfEven (q / 10 ^ (Int.log 10 q - precision + 1)) := by
    apply Double.le_roundHalfEven
    rw [Int.cast_zero]
    positivity
  -- A carry leaves the value as it is.
  have hvalue : ((Format.significant precision q).1 : ℚ) *
      10 ^ ((Format.significant precision q).2 - precision + 1) =
      Double.roundHalfEven (q / 10 ^ (Int.log 10 q - precision + 1)) *
        10 ^ (Int.log 10 q - precision + 1) := by
    have hcast : ((Double.roundHalfEven (q / 10 ^ (Int.log 10 q - precision + 1))).toNat : ℚ) =
        Double.roundHalfEven (q / 10 ^ (Int.log 10 q - precision + 1)) := by
      exact_mod_cast Int.toNat_of_nonneg hnonneg
    rw [← hcast]
    unfold Format.significant
    simp only
    split_ifs with hcarry
    · rw [hcarry]
      push_cast
      rw [← zpow_natCast, ← zpow_natCast, ← zpow_add₀ (by norm_num), ← zpow_add₀ (by norm_num)]
      congr 1
      omega
    · rfl
  have hunits : (Double.roundHalfEven (q / 10 ^ (Int.log 10 q - precision + 1)) : ℚ) *
      10 ^ (Int.log 10 q - precision + 1) - q =
      (Double.roundHalfEven (q / 10 ^ (Int.log 10 q - precision + 1)) -
        q / 10 ^ (Int.log 10 q - precision + 1)) * 10 ^ (Int.log 10 q - precision + 1) := by
    rw [sub_mul, div_mul_cancel₀ _ hpos.ne']
  rw [hvalue, hunits, abs_mul, abs_of_pos hpos]
  exact mul_le_mul_of_nonneg_right (Double.abs_roundHalfEven_sub_le _) hpos.le

/-- **The error of a number of digits.** -/
theorem abs_rounded_sub_le {precision : ℕ} (hprecision : 0 < precision) (q : ℚ) :
    |rounded precision q - q| ≤ 1 / 2 * 10 ^ (1 - precision : ℤ) * |q| := by
  by_cases hzero : q = 0
  · rw [rounded, if_pos hzero, hzero, sub_zero, abs_zero, mul_zero]
  have habs := abs_pos.mpr hzero
  have hsign : |rounded precision q - q| =
      |((Format.significant precision |q|).1 : ℚ) *
        10 ^ ((Format.significant precision |q|).2 - precision + 1) - (|q|)| := by
    rw [rounded, if_neg hzero]
    rcases lt_or_ge q 0 with hneg | hnonneg
    · rw [decide_eq_true hneg, signOf, if_pos rfl, neg_one_mul, ← abs_neg]
      congr 1
      rw [abs_of_neg hneg]
      ring
    · rw [decide_eq_false (not_lt.mpr hnonneg), signOf, if_neg (by decide), abs_of_nonneg hnonneg, one_mul]
  have hlog : (10 : ℚ) ^ Int.log 10 |q| ≤ |q| := by
    exact_mod_cast Int.zpow_log_le_self (by norm_num) habs
  rw [hsign]
  calc _ ≤ 1 / 2 * (10 : ℚ) ^ (Int.log 10 |q| - precision + 1) := abs_significant_sub_le hprecision habs
    _ = 1 / 2 * 10 ^ (1 - precision : ℤ) * 10 ^ Int.log 10 |q| := by
        rw [mul_assoc, ← zpow_add₀ (by norm_num)]
        congr 2
        ring
    _ ≤ 1 / 2 * 10 ^ (1 - precision : ℤ) * |q| := by
        have hpos : (0 : ℚ) < 10 ^ (1 - precision : ℤ) := zpow_pos (by norm_num) _
        exact mul_le_mul_of_nonneg_left hlog (by linarith)

/-! ## A general number read back -/

theorem length_toDigits_of_bounds {precision n : ℕ} (hprecision : 0 < precision)
    (h : 10 ^ (precision - 1) ≤ n ∧ n < 10 ^ precision) : (Nat.toDigits 10 n).length = precision := by
  apply le_antisymm ((Nat.length_toDigits_le_iff (by norm_num) hprecision).mpr h.2)
  by_cases hone : precision = 1
  · have := Nat.length_toDigits_pos (b := 10) (n := n)
    omega
  · by_contra hlt
    have hle : (Nat.toDigits 10 n).length ≤ precision - 1 := by omega
    have := (Nat.length_toDigits_le_iff (by norm_num) (by omega)).mp hle
    omega

/-- The zeros at the end of a fraction do not count. -/
theorem read_mantissa {negative : Bool} {whole digits exponentText : List Char} {exponent : ℤ}
    (hwhole : ∀ c ∈ whole, c.isDigit = true) (hne : whole ≠ [])
    (hdigits : ∀ c ∈ digits, c.isDigit = true) (hexponent : ExponentText exponentText exponent) :
    read ((if negative then ['-'] else []) ++ (whole ++ (Format.fraction digits ++ exponentText))) =
      some (signOf negative * (Nat.ofDigitChars 10 (whole ++ digits) 0 * 10 ^ (exponent - digits.length))) := by
  obtain ⟨kept, zeros, hkept, hsplit⟩ : ∃ kept : List Char, ∃ zeros : ℕ,
      (digits.reverse.dropWhile (· = '0')).reverse = kept ∧ digits = kept ++ List.replicate zeros '0' := by
    refine ⟨_, (digits.reverse.takeWhile (· = '0')).length, rfl, ?_⟩
    have hzeros : digits.reverse.takeWhile (· = '0') =
        List.replicate (digits.reverse.takeWhile (· = '0')).length '0' := by
      apply List.eq_replicate_of_mem
      intro c hc
      have hall := List.all_takeWhile (p := fun c : Char => decide (c = '0')) (l := digits.reverse)
      simpa using List.all_eq_true.mp hall c hc
    have := congrArg List.reverse (List.takeWhile_append_dropWhile (p := (· = '0')) (l := digits.reverse))
    rw [List.reverse_append, List.reverse_reverse, hzeros, List.reverse_replicate] at this
    exact this.symm
  have hkeptDigits : ∀ c ∈ kept, c.isDigit = true := by
    intro c hc
    apply hdigits
    rw [hsplit]
    exact List.mem_append_left _ hc
  have hpoint : FractionText (Format.fraction digits) kept := by
    unfold Format.fraction
    rw [hkept]
    cases kept with
    | nil => exact .none
    | cons c kept => exact .point hkeptDigits
  have hsign : SignText (if negative = true then ['-'] else []) negative := by
    cases negative
    · exact .none
    · exact .minus
  apply read_eq_some_iff.mpr
  refine ⟨_, .mk hsign hwhole hpoint (by simp [hne]) hexponent, ?_⟩
  rw [Numeral.value]
  congr 1
  rw [hsplit, ← List.append_assoc, Nat.ofDigitChars_append 0 (l := whole ++ kept), Nat.ofDigitChars_replicate_zero]
  have hten : (10 : ℚ) ≠ 0 := by norm_num
  rw [List.length_append, List.length_replicate]
  push_cast
  rw [mul_comm ((10 : ℚ) ^ zeros), mul_assoc, ← zpow_natCast, ← zpow_add₀ hten]
  congr 2
  ring

theorem signed_eq (q : ℚ) (text : List Char) :
    Format.signed q text = (if decide (q < 0) = true then ['-'] else []) ++ text := by
  unfold Format.signed
  by_cases hneg : q < 0 <;> simp [hneg]

/-- The exponent of a general number. -/
theorem exponentText_general (exponent : ℤ) :
    ExponentText ('e' :: (if exponent < 0 then '-' else '+') ::
      Format.padLeft 2 '0' (Nat.toDigits 10 exponent.natAbs)) exponent := by
  have hdigits : isDigits (Format.padLeft 2 '0' (Nat.toDigits 10 exponent.natAbs)) = true := by
    simp only [isDigits, Format.padLeft, Bool.and_eq_true, List.all_eq_true]
    refine ⟨by simp, fun c hc => ?_⟩
    rcases List.mem_append.mp hc with hc | hc
    · rw [List.eq_of_mem_replicate hc]
      rfl
    · exact Format.isDigit_toDigits hc
  have hvalue : Nat.ofDigitChars 10 (Format.padLeft 2 '0' (Nat.toDigits 10 exponent.natAbs)) 0 =
      exponent.natAbs := by
    rw [Format.padLeft, Nat.ofDigitChars_append, Nat.ofDigitChars_replicate_zero, mul_zero,
      Nat.ofDigitChars_ten_toDigits]
  by_cases hneg : exponent < 0
  · have htext := ExponentText.some (.inl rfl) .minus hdigits
    have hexponent : (-1 : ℤ) * exponent.natAbs = exponent := by omega
    rw [hvalue, if_pos rfl, hexponent] at htext
    rw [if_pos hneg]
    exact htext
  · have htext := ExponentText.some (.inl rfl) .plus hdigits
    have hexponent : (1 : ℤ) * exponent.natAbs = exponent := by omega
    rw [hvalue, if_neg (by decide), hexponent] at htext
    rw [if_neg hneg]
    exact htext

/-- **A number in the general format reads as the number with that many digits.** -/
theorem read_general {precision : ℕ} (hprecision : 0 < precision) (q : ℚ) :
    read (Format.general precision q) = some (rounded precision q) := by
  by_cases hzero : q = 0
  · subst hzero
    rw [rounded, Format.general, if_pos rfl, if_pos rfl]
    have hread : read ((if false = true then ['-'] else []) ++ (['0'] ++ (Format.fraction [] ++ []))) = _ :=
      read_mantissa (List.forall_mem_singleton.mpr rfl) (by simp) (by simp) .none
    exact hread.trans (by simp [Nat.ofDigitChars_cons])
  have hbounds := significant_bounds hprecision (abs_pos.mpr hzero)
  unfold Format.general rounded
  rw [if_neg hzero, if_neg hzero]
  rcases hparts : Format.significant precision |q| with ⟨number, exponent⟩
  rw [hparts] at hbounds
  have hlength : (Nat.toDigits 10 number).length = precision :=
    length_toDigits_of_bounds hprecision hbounds
  have hdigits : ∀ c ∈ Nat.toDigits 10 number, c.isDigit = true := fun c => Format.isDigit_toDigits
  have htake : ∀ n, ∀ c ∈ (Nat.toDigits 10 number).take n, c.isDigit = true :=
    fun n c hc => hdigits c (List.mem_of_mem_take hc)
  have hdrop : ∀ n, ∀ c ∈ (Nat.toDigits 10 number).drop n, c.isDigit = true :=
    fun n c hc => hdigits c (List.mem_of_mem_drop hc)
  have hne : ∀ n, (Nat.toDigits 10 number).take (n + 1) ≠ [] := by
    intro n h
    rcases List.take_eq_nil_iff.mp h with h | h
    · omega
    · exact Nat.toDigits_ne_nil h
  have hvalue : Nat.ofDigitChars 10 (Nat.toDigits 10 number) 0 = number := Nat.ofDigitChars_ten_toDigits
  simp only [signed_eq]
  by_cases hlarge : exponent < -4 ∨ (precision : ℤ) ≤ exponent
  · rw [if_pos hlarge, List.append_assoc,
      read_mantissa (htake 1) (hne 0) (hdrop 1) (exponentText_general exponent), List.take_append_drop,
      List.length_drop, hlength, hvalue]
    congr 4
    omega
  rw [if_neg hlarge]
  by_cases hsmall : exponent < 0
  · have hzeros : ∀ c ∈ List.replicate (exponent.natAbs - 1) '0' ++ Nat.toDigits 10 number,
        c.isDigit = true := by
      intro c hc
      rcases List.mem_append.mp hc with hc | hc
      · rw [List.eq_of_mem_replicate hc]
        rfl
      · exact hdigits c hc
    have hread : read ((if decide (q < 0) = true then ['-'] else []) ++ (['0'] ++
        (Format.fraction (List.replicate (exponent.natAbs - 1) '0' ++ Nat.toDigits 10 number) ++ []))) = _ :=
      read_mantissa (List.forall_mem_singleton.mpr rfl) (by simp) hzeros .none
    rw [List.append_nil] at hread
    rw [if_pos hsmall]
    apply hread.trans
    rw [Nat.ofDigitChars_append, Nat.ofDigitChars_append, Nat.ofDigitChars_replicate_zero,
      List.length_append, List.length_replicate, hlength]
    have hnone : Nat.ofDigitChars 10 ['0'] 0 = 0 := by simp [Nat.ofDigitChars_cons]
    rw [hnone, mul_zero, hvalue]
    congr 4
    omega
  · rw [if_neg hsmall, ← List.append_nil (Format.fraction _),
      read_mantissa (htake _) (hne _) (hdrop _) .none, List.take_append_drop, List.length_drop, hlength,
      hvalue]
    congr 4
    omega

/-- **Seventeen digits are enough for a double.** -/
theorem ofRat_read_general {q : ℚ} (hq : Double.ofRat q = .finite q) :
    (read (Format.general 17 q)).map Double.ofRat = some (.finite q) := by
  rw [read_general (by norm_num), Option.map_some]
  congr 1
  apply Double.ofRat_of_close hq
  calc |rounded 17 q - q| ≤ 1 / 2 * 10 ^ (1 - (17 : ℕ) : ℤ) * |q| := abs_rounded_sub_le (by norm_num) q
    _ = 5 / 10 ^ 17 * |q| := by norm_num

/-! ## The text of a general number -/

/-- The characters of a number. -/
def isNumberCharacter (c : Char) : Bool := c.isDigit || c = '-' || c = '.' || c = 'e' || c = '+'

theorem mem_general {precision : ℕ} (hprecision : 0 < precision) {q : ℚ} {c : Char}
    (hc : c ∈ Format.general precision q) : isNumberCharacter c = true := by
  have hdigit : ∀ {c : Char}, c.isDigit = true → isNumberCharacter c = true := by
    intro c h
    simp [isNumberCharacter, h]
  obtain ⟨whole, fraction, exponent, hshape, hwhole, hfraction, hexponent⟩ :=
    Format.general_shape hprecision q
  rw [hshape, signed_eq] at hc
  rcases List.mem_append.mp hc with hc | hc
  · split_ifs at hc
    · rw [List.mem_singleton.mp hc]
      rfl
    · exact absurd hc List.not_mem_nil
  rcases List.mem_append.mp hc with hc | hc
  · rcases hwhole with rfl | ⟨-, -, hdigits⟩
    · rw [List.mem_singleton.mp hc]
      rfl
    · exact hdigit (hdigits c hc)
  rcases List.mem_append.mp hc with hc | hc
  · rcases hfraction with rfl | ⟨digits, rfl, -, hdigits⟩
    · exact absurd hc List.not_mem_nil
    · rcases List.mem_cons.mp hc with rfl | hc
      · rfl
      · exact hdigit (hdigits c hc)
  · rcases hexponent with rfl | ⟨sign, digits, rfl, hsign, -, hdigits⟩
    · exact absurd hc List.not_mem_nil
    · rcases List.mem_cons.mp hc with rfl | hc
      · rfl
      rcases List.mem_cons.mp hc with rfl | hc
      · rcases hsign with rfl | rfl <;> rfl
      · exact hdigit (hdigits c hc)

theorem length_fraction_le (digits : List Char) : (Format.fraction digits).length ≤ digits.length + 1 := by
  have hle : ((digits.reverse.dropWhile (· = '0')).reverse).length ≤ digits.length := by
    rw [List.length_reverse]
    have hsublist := (List.dropWhile_sublist (· = '0') (l := digits.reverse)).length_le
    rwa [List.length_reverse] at hsublist
  unfold Format.fraction
  split
  · exact Nat.zero_le _
  · rename_i kept hne
    rw [List.length_cons]
    omega

/-- The exponent of a number is that of its first digit, or one more. -/
theorem significant_exponent (precision : ℕ) (q : ℚ) :
    (Format.significant precision q).2 = Int.log 10 q ∨
      (Format.significant precision q).2 = Int.log 10 q + 1 := by
  unfold Format.significant
  simp only
  split_ifs
  · exact .inr rfl
  · exact .inl rfl

/-- A number whose exponent has three digits is short. -/
theorem length_general_le {precision : ℕ} (hprecision : 0 < precision) {q : ℚ}
    (hexponent : (Int.log 10 |q|).natAbs < 999) : (Format.general precision q).length ≤ precision + 7 := by
  by_cases hzero : q = 0
  · rw [Format.general, if_pos hzero]
    simp
  have hbounds := significant_bounds hprecision (abs_pos.mpr hzero)
  have hsignificant := significant_exponent precision |q|
  unfold Format.general
  rw [if_neg hzero]
  rcases hparts : Format.significant precision |q| with ⟨number, exponent⟩
  rw [hparts] at hbounds hsignificant
  have hlength : (Nat.toDigits 10 number).length = precision :=
    length_toDigits_of_bounds hprecision hbounds
  have hdigits : (Nat.toDigits 10 exponent.natAbs).length ≤ 3 := by
    apply (Nat.length_toDigits_le_iff (by norm_num) (by norm_num)).mpr
    simp only at hsignificant
    omega
  have hsign : (if decide (q < 0) = true then ['-'] else []).length ≤ 1 := by
    split_ifs <;> simp
  simp only [signed_eq]
  rw [List.length_append]
  by_cases hlarge : exponent < -4 ∨ (precision : ℤ) ≤ exponent
  · have hfraction := length_fraction_le ((Nat.toDigits 10 number).drop 1)
    rw [if_pos hlarge]
    simp only [Format.padLeft, List.length_append, List.length_cons, List.length_replicate,
      List.length_take, List.length_drop] at hfraction ⊢
    omega
  rw [if_neg hlarge]
  by_cases hsmall : exponent < 0
  · have hfraction := length_fraction_le (List.replicate (exponent.natAbs - 1) '0' ++ Nat.toDigits 10 number)
    rw [if_pos hsmall]
    simp only [List.length_append, List.length_cons, List.length_replicate] at hfraction ⊢
    omega
  · have hfraction := length_fraction_le ((Nat.toDigits 10 number).drop (exponent.toNat + 1))
    rw [if_neg hsmall]
    simp only [List.length_append, List.length_take, List.length_drop] at hfraction ⊢
    omega

end Decimal

end NetFT.Library
