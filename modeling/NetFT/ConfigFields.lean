/-
# NetFT.ConfigFields — a configuration as its callers fill it (`types.cpp`).

The three programs over the library set the fields of a `Config` from parameters or arguments, so that a
double may be infinite or no number.  `validate` refuses those first; what it accepts is a `Config` of finite
numbers, and a valid one (`validate_fields_iff`).
-/
import NetFT.ConfigChecks

namespace NetFT

set_option autoImplicit false

open Library (Double bind_eq_ok_iff throwIf throwIf_eq_ok_iff)

/-! ## Fields -/

/-- The fields of a calibration, as doubles. -/
structure CalibrationFields where
  countsPerForceUnit : Double
  countsPerTorqueUnit : Double
  forceUnit : ForceUnit
  torqueUnit : TorqueUnit
  deriving DecidableEq, Repr

/-- The fields of a configuration, as doubles: they may be infinite or NaN. -/
structure ConfigFields where
  sensorHost : String := "192.168.1.1"
  rdtPort : Int := 49152
  httpPort : Int := 80
  receiveTimeout : Double := .finite (1 / 10)
  configurationConnectTimeout : Double := .finite (1 / 2)
  configurationTimeout : Double := .finite 1
  reconnectInitialDelay : Double := .finite (1 / 4)
  reconnectMaxDelay : Double := .finite 5
  sampleRateLimitHz : Double := .finite 0
  deliverSamplesWithErrorStatus : Bool := false
  recoveryPolicy : RecoveryPolicy := .Reconnect
  calibrationOverride : Option CalibrationFields := none
  deriving DecidableEq, Repr

/-- The fields of a calibration. -/
def Calibration.fields (calibration : Calibration) : CalibrationFields where
  countsPerForceUnit := .finite calibration.countsPerForceUnit
  countsPerTorqueUnit := .finite calibration.countsPerTorqueUnit
  forceUnit := calibration.forceUnit
  torqueUnit := calibration.torqueUnit

/-- The fields of a configuration. -/
def Config.fields (config : Config) : ConfigFields where
  sensorHost := config.sensorHost
  rdtPort := config.rdtPort
  httpPort := config.httpPort
  receiveTimeout := .finite config.receiveTimeout
  configurationConnectTimeout := .finite config.configurationConnectTimeout
  configurationTimeout := .finite config.configurationTimeout
  reconnectInitialDelay := .finite config.reconnectInitialDelay
  reconnectMaxDelay := .finite config.reconnectMaxDelay
  sampleRateLimitHz := .finite config.sampleRateLimitHz
  deliverSamplesWithErrorStatus := config.deliverSamplesWithErrorStatus
  recoveryPolicy := config.recoveryPolicy
  calibrationOverride := config.calibrationOverride.map Calibration.fields

/-! ## Texts -/

/-- `std::stod` and `std::stol`: what they read and how many characters they take, unless they throw. -/
structure Numbers where
  stod : List UInt8 → Option (Double × ℕ)
  stol : List UInt8 → Option (Int × ℕ)

/-- The bytes of an argument as a string. -/
def textOf (bytes : List UInt8) : String := String.ofList (bytes.map fun b => Char.ofNat b.toNat)

/-! ## Checks on doubles -/

/-- `std::isfinite`, or an exception. -/
def requireFinite (what : String) : Double → Except String ℚ
  | .finite value => .ok value
  | _ => .error what

def notPositiveFinite (name : String) : String := name ++ " must be finite and positive"

/-- `require_safe_timeout`. -/
def safeTimeout (now : TimePoint) (name : String) (value : Double) (http : Bool) : Except String Seconds := do
  let seconds ← requireFinite (notPositiveFinite name) value
  requireSafeTimeout now name seconds http
  return seconds

/-- `require_safe_count`. -/
def safeCount (name : String) (value : Double) : Except String ℚ := do
  let count ← requireFinite (notPositiveFinite name) value
  requireSafeCount name count
  return count

/-- `validate` of a calibration, on its fields. -/
def CalibrationFields.validate (fields : CalibrationFields) : Except String Calibration := do
  let countsPerForceUnit ← safeCount "counts_per_force_unit" fields.countsPerForceUnit
  let countsPerTorqueUnit ← safeCount "counts_per_torque_unit" fields.countsPerTorqueUnit
  throwIf (fields.forceUnit = .Unknown ∨ fields.torqueUnit = .Unknown) "calibration units must be known"
  return { countsPerForceUnit, countsPerTorqueUnit,
           forceUnit := fields.forceUnit, torqueUnit := fields.torqueUnit }

/-- The override is checked if there is one. -/
def validateOverride : Option CalibrationFields → Except String (Option Calibration)
  | none => .ok none
  | some fields => do
    let calibration ← fields.validate
    return some calibration

/-- `validate`, with the configuration that it lets through. -/
def ConfigFields.validate (now : TimePoint) (fields : ConfigFields) : Except String Config := do
  throwIf (isBlank fields.sensorHost = true) "sensor_host must not be blank"
  requirePort "rdt_port" fields.rdtPort
  requirePort "http_port" fields.httpPort
  let receiveTimeout ← safeTimeout now "receive_timeout" fields.receiveTimeout false
  let configurationConnectTimeout ←
    safeTimeout now "configuration_connect_timeout" fields.configurationConnectTimeout true
  let configurationTimeout ← safeTimeout now "configuration_timeout" fields.configurationTimeout true
  let reconnectInitialDelay ← safeTimeout now "reconnect_initial_delay" fields.reconnectInitialDelay false
  let reconnectMaxDelay ← safeTimeout now "reconnect_max_delay" fields.reconnectMaxDelay false
  throwIf (reconnectMaxDelay < reconnectInitialDelay)
    "reconnect_max_delay must not be below reconnect_initial_delay"
  let sampleRateLimitHz ←
    requireFinite "sample_rate_limit_hz must be finite and non-negative" fields.sampleRateLimitHz
  throwIf (sampleRateLimitHz < 0) "sample_rate_limit_hz must be finite and non-negative"
  let calibrationOverride ← validateOverride fields.calibrationOverride
  return {
    sensorHost := fields.sensorHost, rdtPort := fields.rdtPort, httpPort := fields.httpPort,
    receiveTimeout, configurationConnectTimeout, configurationTimeout, reconnectInitialDelay,
    reconnectMaxDelay, sampleRateLimitHz,
    deliverSamplesWithErrorStatus := fields.deliverSamplesWithErrorStatus,
    recoveryPolicy := fields.recoveryPolicy, calibrationOverride }

/-! ## What they accept -/

theorem requireFinite_eq_ok_iff {what : String} {value : Double} {q : ℚ} :
    requireFinite what value = .ok q ↔ value = .finite q := by
  cases value <;> simp [requireFinite]

/-- A timeout passes exactly if it is finite and safe. -/
theorem safeTimeout_eq_ok_iff {now : TimePoint} {name : String} {value : Double} {http : Bool}
    {seconds : Seconds} :
    safeTimeout now name value http = .ok seconds ↔ value = .finite seconds ∧ SafeTimeout now seconds http := by
  simp only [safeTimeout, bind_eq_ok_iff, requireFinite_eq_ok_iff, requireSafeTimeout_iff]
  constructor
  · rintro ⟨q, hvalue, _, hsafe, hq⟩
    cases hq
    exact ⟨hvalue, hsafe⟩
  · rintro ⟨hvalue, hsafe⟩
    exact ⟨seconds, hvalue, (), hsafe, rfl⟩

/-- A count passes exactly if it is finite and not too small. -/
theorem safeCount_eq_ok_iff {name : String} {value : Double} {count : ℚ} :
    safeCount name value = .ok count ↔ value = .finite count ∧ minimumCount ≤ count := by
  simp only [safeCount, bind_eq_ok_iff, requireFinite_eq_ok_iff, requireSafeCount_iff]
  constructor
  · rintro ⟨q, hvalue, _, hle, hq⟩
    cases hq
    exact ⟨hvalue, hle⟩
  · rintro ⟨hvalue, hle⟩
    exact ⟨count, hvalue, (), hle, rfl⟩

/-- The fields that pass are those of the valid calibrations. -/
theorem CalibrationFields.validate_eq_ok_iff {fields : CalibrationFields} {calibration : Calibration} :
    fields.validate = .ok calibration ↔ fields = calibration.fields ∧ calibration.Valid := by
  simp only [CalibrationFields.validate, bind_eq_ok_iff, safeCount_eq_ok_iff, throwIf_eq_ok_iff]
  constructor
  · rintro ⟨force, ⟨hforce, hleforce⟩, torque, ⟨htorque, hletorque⟩, _, hunits, heq⟩
    cases heq
    obtain ⟨_, _, forceUnit, torqueUnit⟩ := fields
    cases hforce
    cases htorque
    push Not at hunits
    exact ⟨rfl, hleforce, hletorque, hunits.1, hunits.2⟩
  · rintro ⟨rfl, hvalid⟩
    exact ⟨_, ⟨rfl, hvalid.force⟩, _, ⟨rfl, hvalid.torque⟩, (),
      by simp [Calibration.fields, hvalid.forceUnit, hvalid.torqueUnit], rfl⟩

theorem validateOverride_eq_ok_iff {fields : Option CalibrationFields} {override : Option Calibration} :
    validateOverride fields = .ok override ↔
      fields = override.map Calibration.fields ∧ ∀ calibration ∈ override, calibration.Valid := by
  cases fields with
  | none =>
    cases override <;> simp [validateOverride]
  | some fields =>
    simp only [validateOverride, bind_eq_ok_iff, CalibrationFields.validate_eq_ok_iff]
    constructor
    · rintro ⟨calibration, ⟨rfl, hvalid⟩, heq⟩
      cases heq
      exact ⟨rfl, by simpa using hvalid⟩
    · rintro ⟨hfields, hvalid⟩
      cases override with
      | none => cases hfields
      | some calibration =>
        cases hfields
        exact ⟨calibration, ⟨rfl, hvalid calibration rfl⟩, rfl⟩

/-- **`validate` lets the valid configurations through, and nothing else.** -/
theorem validate_fields_iff {now : TimePoint} {fields : ConfigFields} {config : Config} :
    fields.validate now = .ok config ↔ fields = config.fields ∧ config.Valid now := by
  simp only [ConfigFields.validate, bind_eq_ok_iff, throwIf_eq_ok_iff, requirePort_iff, safeTimeout_eq_ok_iff,
    requireFinite_eq_ok_iff, validateOverride_eq_ok_iff]
  constructor
  · rintro ⟨_, hhost, _, hrdt, _, hhttp, receive, ⟨hreceive, hreceive'⟩, connect, ⟨hconnect, hconnect'⟩, total,
      ⟨htotal, htotal'⟩, initial, ⟨hinitial, hinitial'⟩, longest, ⟨hlongest, hlongest'⟩, _, hdelays, rate, hrate,
      _, hrate', override, ⟨hoverride, hoverride'⟩, heq⟩
    cases heq
    obtain ⟨_, _, _, _, _, _, _, _, _, _, _, _⟩ := fields
    subst hreceive hconnect htotal hinitial hlongest hrate hoverride
    exact ⟨rfl, Bool.eq_false_of_not_eq_true hhost, hrdt, hhttp, hreceive', hconnect', htotal', hinitial',
      hlongest', not_lt.mp hdelays, not_lt.mp hrate', hoverride'⟩
  · rintro ⟨rfl, h⟩
    exact ⟨(), by simp [Config.fields, h.sensorHost], (), h.rdtPort, (), h.httpPort, _, ⟨rfl, h.receiveTimeout⟩,
      _, ⟨rfl, h.configurationConnectTimeout⟩, _, ⟨rfl, h.configurationTimeout⟩, _,
      ⟨rfl, h.reconnectInitialDelay⟩, _, ⟨rfl, h.reconnectMaxDelay⟩, (), not_lt.mpr h.delays, _, rfl, (),
      not_lt.mpr h.sampleRateLimit, _, ⟨rfl, h.calibration⟩, rfl⟩

end NetFT
