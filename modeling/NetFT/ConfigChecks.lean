/-
# NetFT.ConfigChecks — what a validated configuration is.

`validate` as a property of the configuration, without the order of its checks.
-/
import NetFT.Library.Fallible
import NetFT.Validate

namespace NetFT

set_option autoImplicit false

open Library (bind_eq_ok_iff throwIf throwIf_eq_ok_iff)

/-- A timeout that the steady clock can represent, and count from `now`; one for libcurl is a `long` of
milliseconds as well. -/
structure SafeTimeout (now : TimePoint) (value : Seconds) (http : Bool) : Prop where
  resolved : 1 ≤ clockTicks value
  representable : clockTicks value < maxTicks
  reachable : now + ⌊clockTicks value⌋ ≤ maxTicks
  http : http = true → ⌈value * 1000⌉ < maxTicks

/-- What `validate` requires. -/
structure Config.Valid (now : TimePoint) (config : Config) : Prop where
  sensorHost : isBlank config.sensorHost = false
  rdtPort : 1 ≤ config.rdtPort ∧ config.rdtPort ≤ 65535
  httpPort : 1 ≤ config.httpPort ∧ config.httpPort ≤ 65535
  receiveTimeout : SafeTimeout now config.receiveTimeout false
  configurationConnectTimeout : SafeTimeout now config.configurationConnectTimeout true
  configurationTimeout : SafeTimeout now config.configurationTimeout true
  reconnectInitialDelay : SafeTimeout now config.reconnectInitialDelay false
  reconnectMaxDelay : SafeTimeout now config.reconnectMaxDelay false
  delays : config.reconnectInitialDelay ≤ config.reconnectMaxDelay
  sampleRateLimit : 0 ≤ config.sampleRateLimitHz
  calibration : ∀ calibration ∈ config.calibrationOverride, calibration.Valid

/-! ## The checks -/

/-- A port passes exactly from 1 to 65535. -/
theorem requirePort_iff {name : String} {value : Int} {u : Unit} :
    requirePort name value = .ok u ↔ 1 ≤ value ∧ value ≤ 65535 := by
  unfold requirePort
  split_ifs with h
  · exact ⟨fun h => (by cases h), fun _ => by omega⟩
  · exact ⟨fun _ => by omega, fun _ => rfl⟩

theorem SafeTimeout.pos {now : TimePoint} {value : Seconds} {http : Bool} (h : SafeTimeout now value http) :
    0 < value := by
  have hticks : (0 : ℚ) < ticksPerSecond := by norm_num [ticksPerSecond]
  by_contra hnot
  have hle : clockTicks value ≤ 0 :=
    Library.Double.roundTo_nonpos (mul_nonpos_of_nonpos_of_nonneg (not_lt.mp hnot) hticks.le)
  linarith [h.resolved]

/-- A timeout passes exactly if it is safe: a nanosecond at least, with a deadline the clock can hold. -/
theorem requireSafeTimeout_iff {now : TimePoint} {name : String} {value : Seconds} {http : Bool} {u : Unit} :
    requireSafeTimeout now name value http = .ok u ↔ SafeTimeout now value http := by
  unfold requireSafeTimeout requirePositiveFinite
  by_cases hpos : value ≤ 0
  · rw [if_pos hpos]
    exact ⟨fun h => (by cases h), fun h => absurd h.pos (not_lt.mpr hpos)⟩
  have hticks : 0 ≤ clockTicks value :=
    Library.Double.roundTo_nonneg (mul_nonneg (not_le.mp hpos).le (by norm_num [ticksPerSecond]))
  rw [if_neg hpos]
  by_cases hrange : (maxTicks : ℚ) ≤ clockTicks value
  · have hduration : checkedDuration value = .error _ := if_pos (.inr hrange)
    rw [hduration]
    exact ⟨fun h => (by cases h), fun h => absurd h.representable (not_lt.mpr hrange)⟩
  have hduration : checkedDuration value = .ok ⌊clockTicks value⌋ :=
    if_neg (by push Not; exact ⟨hticks, not_le.mp hrange⟩)
  rw [hduration]
  have hone : ⌊clockTicks value⌋ ≤ 0 ↔ ¬ 1 ≤ clockTicks value := by
    rw [not_le, ← not_lt, ← Int.add_one_le_iff, zero_add, Int.le_floor, Int.cast_one, not_le]
  simp only [checkedDeadline, hduration]
  split_ifs with hresolution hdeadline hhttp
  · exact ⟨fun h => (by cases h), fun h => absurd h.resolved (hone.mp hresolution)⟩
  · exact ⟨fun h => (by cases h), fun h => absurd h.reachable (not_le.mpr (by linarith))⟩
  · exact ⟨fun h => (by cases h), fun h => absurd (h.http hhttp.1) (not_lt.mpr hhttp.2)⟩
  · refine ⟨fun _ => ⟨by_contra fun h => hresolution (hone.mpr h), not_le.mp hrange, by linarith, fun h => ?_⟩,
      fun _ => rfl⟩
    exact not_le.mp fun hle => hhttp ⟨h, hle⟩

/-- The check of a count passes exactly from the least safe one on. -/
theorem requireSafeCount_iff {name : String} {value : ℚ} {u : Unit} :
    requireSafeCount name value = .ok u ↔ minimumCount ≤ value := by
  refine ⟨fun h => minimumCount_le_of_requireSafeCount h, fun h => ?_⟩
  unfold requireSafeCount requirePositiveFinite
  rw [if_neg (not_le.mpr (minimumCount_pos.trans_le h))]
  exact if_neg (not_lt.mpr h)

/-- `validate` of a calibration passes exactly the valid ones. -/
theorem validate_calibration_iff {calibration : Calibration} {u : Unit} :
    calibration.validate = .ok u ↔ calibration.Valid := by
  refine ⟨Calibration.valid_of_validate, fun h => ?_⟩
  have hcount : ∀ {name : String} {value : ℚ}, minimumCount ≤ value → requireSafeCount name value = .ok () :=
    fun h => requireSafeCount_iff.mpr h
  rw [Calibration.validate, hcount h.force, hcount h.torque]
  exact if_neg (by simp [h.forceUnit, h.torqueUnit])

/-! ## `validate` -/

/-- `validate` as a sequence of checks. -/
theorem validate_eq (now : TimePoint) (config : Config) : config.validate now = (do
    throwIf (isBlank config.sensorHost = true) "sensor_host must not be blank"
    requirePort "rdt_port" config.rdtPort
    requirePort "http_port" config.httpPort
    requireSafeTimeout now "receive_timeout" config.receiveTimeout false
    requireSafeTimeout now "configuration_connect_timeout" config.configurationConnectTimeout true
    requireSafeTimeout now "configuration_timeout" config.configurationTimeout true
    requireSafeTimeout now "reconnect_initial_delay" config.reconnectInitialDelay false
    requireSafeTimeout now "reconnect_max_delay" config.reconnectMaxDelay false
    throwIf (config.reconnectMaxDelay < config.reconnectInitialDelay)
      "reconnect_max_delay must not be below reconnect_initial_delay"
    throwIf (config.sampleRateLimitHz < 0) "sample_rate_limit_hz must be finite and non-negative"
    match config.calibrationOverride with
    | some calibration => calibration.validate
    | none => .ok ()) := by
  unfold Config.validate throwIf
  split_ifs <;> rfl

/-- **`validate` accepts the valid configurations.** -/
theorem validate_iff {now : TimePoint} {config : Config} {u : Unit} :
    config.validate now = .ok u ↔ config.Valid now := by
  have hcalibration : (match config.calibrationOverride with
      | some calibration => calibration.validate
      | none => .ok ()) = .ok u ↔ ∀ calibration ∈ config.calibrationOverride, calibration.Valid := by
    rcases config.calibrationOverride with _ | calibration
    · simp
    · simp [validate_calibration_iff]
  simp only [validate_eq, bind_eq_ok_iff, throwIf_eq_ok_iff, requirePort_iff, requireSafeTimeout_iff, hcalibration]
  constructor
  · rintro ⟨_, hhost, _, hrdt, _, hhttp, _, hreceive, _, hconnect, _, htotal, _, hinitial, _, hmax, _, hdelays, _,
      hrate, hcalibration⟩
    exact ⟨Bool.eq_false_of_not_eq_true hhost, hrdt, hhttp, hreceive, hconnect, htotal, hinitial, hmax,
      not_lt.mp hdelays, not_lt.mp hrate, hcalibration⟩
  · intro h
    exact ⟨(), by simp [h.sensorHost], (), h.rdtPort, (), h.httpPort, (), h.receiveTimeout, (),
      h.configurationConnectTimeout, (), h.configurationTimeout, (), h.reconnectInitialDelay, (),
      h.reconnectMaxDelay, (), not_lt.mpr h.delays, (), not_lt.mpr h.sampleRateLimit, h.calibration⟩

end NetFT
