/-
# NetFT.Validate — configuration and calibration checks (`types.cpp`).

`validate` throws `std::invalid_argument` at the first violated requirement; the model returns its
text.  The requirement on the counts per unit is what makes scaling total: a raw 32-bit count divided
by a validated number of counts is a finite double (`Calibration.scaled_isFinite`).
-/
import NetFT.Time
import Mathlib.Tactic.FieldSimp

namespace NetFT

open Library (Double)

/-- `std::isspace` in the classic locale. -/
def isSpace (character : Char) : Bool :=
  character.toNat = 0x20 || (0x09 ≤ character.toNat && character.toNat ≤ 0x0d)

/-- A string of blanks, also the empty one. -/
def isBlank (value : String) : Bool := value.toList.all isSpace

/-- A setting that must be positive. -/
def requirePositiveFinite (name : String) (value : ℚ) : Except String Unit :=
  if value ≤ 0 then .error (name ++ " must be finite and positive") else .ok ()

/-- `now` is the clock reading that the deadline check takes. -/
def requireSafeTimeout (now : TimePoint) (name : String) (value : Seconds) (http : Bool) :
    Except String Unit :=
  match requirePositiveFinite name value, checkedDuration value with
  | .error what, _ => .error what
  | .ok _, .error what => .error what
  | .ok _, .ok ticks =>
    if ticks ≤ 0 then .error (name ++ " is below the steady-clock resolution")
    else
      match checkedDeadline now value with
      | .error what => .error what
      | .ok _ =>
        if http ∧ maxTicks ≤ ⌈value * 1000⌉ then
          .error (name ++ " is outside the HTTP timer range")
        else .ok ()

/-- A port, from 1 to 65535. -/
def requirePort (name : String) (value : Int) : Except String Unit :=
  if value < 1 ∨ 65535 < value then .error (name ++ " must be in the range 1..65535") else .ok ()

/-- The smallest divisor that keeps `INT32_MIN` in the range of a double. -/
def minimumCount : ℚ := 2 ^ 31 / Double.maxFinite * (1 + 1 / 2 ^ 52)

/-- A number of counts per unit, not so small that a scaled value overflows. -/
def requireSafeCount (name : String) (value : ℚ) : Except String Unit :=
  match requirePositiveFinite name value with
  | .error what => .error what
  | .ok _ =>
    if value < minimumCount then .error (name ++ " cannot represent the full raw count range")
    else .ok ()

/-- `validate` of a calibration: its counts, then its units. -/
def Calibration.validate (calibration : Calibration) : Except String Unit := do
  requireSafeCount "counts_per_force_unit" calibration.countsPerForceUnit
  requireSafeCount "counts_per_torque_unit" calibration.countsPerTorqueUnit
  if calibration.forceUnit = .Unknown ∨ calibration.torqueUnit = .Unknown then
    .error "calibration units must be known"
  else .ok ()

/-- `validate` of a configuration; the checks in the order of the source. -/
def Config.validate (now : TimePoint) (config : Config) : Except String Unit := do
  if isBlank config.sensorHost then .error "sensor_host must not be blank"
  requirePort "rdt_port" config.rdtPort
  requirePort "http_port" config.httpPort
  requireSafeTimeout now "receive_timeout" config.receiveTimeout false
  requireSafeTimeout now "configuration_connect_timeout" config.configurationConnectTimeout true
  requireSafeTimeout now "configuration_timeout" config.configurationTimeout true
  requireSafeTimeout now "reconnect_initial_delay" config.reconnectInitialDelay false
  requireSafeTimeout now "reconnect_max_delay" config.reconnectMaxDelay false
  if config.reconnectMaxDelay < config.reconnectInitialDelay then
    .error "reconnect_max_delay must not be below reconnect_initial_delay"
  if config.sampleRateLimitHz < 0 then
    .error "sample_rate_limit_hz must be finite and non-negative"
  match config.calibrationOverride with
  | some calibration => calibration.validate
  | none => .ok ()

/-! ## Validated counts never overflow -/

/-- What a validated calibration guarantees. -/
structure Calibration.Valid (calibration : Calibration) : Prop where
  force : minimumCount ≤ calibration.countsPerForceUnit
  torque : minimumCount ≤ calibration.countsPerTorqueUnit
  forceUnit : calibration.forceUnit ≠ .Unknown
  torqueUnit : calibration.torqueUnit ≠ .Unknown

/-- What the check of a count leaves. -/
theorem minimumCount_le_of_requireSafeCount {name : String} {value : ℚ}
    (h : requireSafeCount name value = .ok ()) : minimumCount ≤ value := by
  unfold requireSafeCount at h
  split at h
  · exact absurd h (by simp)
  · split_ifs at h with hlt
    exact not_lt.mp hlt

/-- A calibration that was validated carries the bounds that scaling needs. -/
theorem Calibration.valid_of_validate {calibration : Calibration}
    (h : calibration.validate = .ok ()) : calibration.Valid := by
  simp only [Calibration.validate, bind, Except.bind] at h
  split at h
  · exact absurd h (by simp)
  rename_i hforce
  split at h
  · exact absurd h (by simp)
  rename_i htorque
  split_ifs at h with hunits
  push Not at hunits
  exact ⟨minimumCount_le_of_requireSafeCount hforce,
    minimumCount_le_of_requireSafeCount htorque, hunits.1, hunits.2⟩

/-- A timeout that was checked is positive. -/
theorem positive_of_requireSafeTimeout {now : TimePoint} {name : String} {value : Seconds} {http : Bool}
    (h : requireSafeTimeout now name value http = .ok ()) : 0 < value := by
  unfold requireSafeTimeout at h
  by_contra hnot
  rw [requirePositiveFinite, if_pos (not_lt.mp hnot)] at h
  cases h

/-- The delays of a validated configuration. -/
theorem Config.delays_of_validate {config : Config} {now : TimePoint} (h : config.validate now = .ok ()) :
    0 < config.reconnectInitialDelay ∧ config.reconnectInitialDelay ≤ config.reconnectMaxDelay := by
  simp only [Config.validate, bind, Except.bind] at h
  iterate 8
    split at h
    · cases h
  split_ifs at h with hle
  have hinitial := ‹requireSafeTimeout now "reconnect_initial_delay" _ _ = _›
  exact ⟨positive_of_requireSafeTimeout hinitial, not_lt.mp hle⟩

theorem maxFinite_pos : 0 < Double.maxFinite :=
  mul_pos (by norm_num) (pow_pos (by norm_num) _)

theorem minimumCount_pos : 0 < minimumCount :=
  mul_pos (div_pos (by norm_num) maxFinite_pos) (by norm_num)

/-- A 32-bit count over a validated divisor stays in the range of a double. -/
theorem scaled_isFinite {raw : Int} {counts : ℚ} (hraw : -2 ^ 31 ≤ raw ∧ raw < 2 ^ 31)
    (hcounts : minimumCount ≤ counts) : (Double.ofRat (raw / counts)).isFinite = true := by
  have hpos : 0 < counts := lt_of_lt_of_le minimumCount_pos hcounts
  have habs : |(raw : ℚ)| ≤ 2 ^ 31 := by
    rw [abs_le]
    exact ⟨by exact_mod_cast hraw.1, by exact_mod_cast hraw.2.le⟩
  have hfloor : 2 ^ 31 / Double.maxFinite ≤ counts :=
    calc (2 : ℚ) ^ 31 / Double.maxFinite
        = 2 ^ 31 / Double.maxFinite * 1 := (mul_one _).symm
      _ ≤ minimumCount := by
          apply mul_le_mul_of_nonneg_left (by norm_num)
          exact (div_pos (by norm_num) maxFinite_pos).le
      _ ≤ counts := hcounts
  apply Double.ofRat_isFinite
  rw [abs_div, abs_of_pos hpos, div_le_iff₀ hpos]
  calc |(raw : ℚ)| ≤ 2 ^ 31 := habs
    _ = Double.maxFinite * (2 ^ 31 / Double.maxFinite) := by
        field_simp [maxFinite_pos.ne']
    _ ≤ Double.maxFinite * counts := mul_le_mul_of_nonneg_left hfloor maxFinite_pos.le

end NetFT
