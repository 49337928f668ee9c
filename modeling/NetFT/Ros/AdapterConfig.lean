/-
# NetFT.Ros.AdapterConfig — the parameters of the ROS nodes (`ros/adapter_config.hpp`).

Both nodes fill `AdapterParameters` from their parameter server, map them, and build the client, the
evaluator and the timer from the result, in this order and without a check of their own.

* `mapAdapterParameters_iff`: which parameters are mapped, and to what.
* **`mapped_constructs`**: what is mapped constructs; neither the client nor the evaluator refuses it, and
  10^9 / `diagnostics_rate` nanoseconds, the period asked of the timer, is at least one and fits 64 bits.
-/
import NetFT.ConfigFields
import NetFT.Ros.Evaluator

namespace NetFT.Ros

set_option autoImplicit false

open Library (Double bind_eq_ok_iff throwIf throwIf_eq_ok_iff)

/-! ## Parameters -/

structure AdapterParameters where
  sensorIp : String := "192.168.1.1"
  sensorPort : Int := 49152
  httpPort : Int := 80
  frameId : String := "netft_link"
  wrenchTopic : String := "/netft/wrench"
  biasService : String := "/netft/bias"
  allowBias : Bool := true
  useSensorCalibration : Bool := true
  countsPerForce : Double := .finite 1000000
  countsPerTorque : Double := .finite 1000000
  publishRate : Double := .finite 0
  receiveTimeout : Double := .finite (1 / 10)
  configurationConnectTimeout : Double := .finite (1 / 2)
  configurationTimeout : Double := .finite 1
  reconnectInitialDelay : Double := .finite (1 / 4)
  reconnectMaxDelay : Double := .finite 5
  diagnosticsRate : Double := .finite 1
  expectedRdtRate : Double := .finite 2000
  rateTolerance : Double := .finite (1 / 5)
  publishOnError : Bool := false
  deriving DecidableEq, Repr

structure AdapterConfig where
  client : Config
  frameId : String
  wrenchTopic : String
  biasService : String
  allowBias : Bool := true
  diagnosticsRate : ℚ
  expectedRdtRate : ℚ
  rateTolerance : ℚ
  deriving DecidableEq, Repr

/-- The characters of `find_first_not_of`. -/
def adapterBlanks : List Char := [' ', '\t', '\n', '\r', '\x0c', '\x0b']

def nonEmpty (name value : String) : Except String Unit :=
  throwIf (value.toList.all (adapterBlanks.contains ·) = true) (name ++ " must be non-empty")

/-- Nanoseconds in a second, as a `long double`. -/
def nanoseconds : ℚ := 1000000000

/-- `validate_adapter_config`, with the rate that it lets through. -/
def validateAdapterConfig (frameId wrenchTopic biasService : String) (diagnosticsRate : Double) :
    Except String ℚ := do
  nonEmpty "frame_id" frameId
  nonEmpty "wrench_topic" wrenchTopic
  nonEmpty "bias_service" biasService
  let rate ← requireFinite "diagnostics_rate must be finite and greater than zero" diagnosticsRate
  throwIf (rate ≤ 0 ∨ nanoseconds / rate < 1 ∨ (maxTicks : ℚ) ≤ nanoseconds / rate)
    "diagnostics_rate must be finite and greater than zero"
  return rate

namespace AdapterParameters

/-- The configuration of the client, before `validate`. -/
def client (parameters : AdapterParameters) : ConfigFields where
  sensorHost := parameters.sensorIp
  rdtPort := parameters.sensorPort
  httpPort := parameters.httpPort
  receiveTimeout := parameters.receiveTimeout
  configurationConnectTimeout := parameters.configurationConnectTimeout
  configurationTimeout := parameters.configurationTimeout
  reconnectInitialDelay := parameters.reconnectInitialDelay
  reconnectMaxDelay := parameters.reconnectMaxDelay
  sampleRateLimitHz := parameters.publishRate
  deliverSamplesWithErrorStatus := parameters.publishOnError
  calibrationOverride :=
    if parameters.useSensorCalibration then none
    else some {
      countsPerForceUnit := parameters.countsPerForce, countsPerTorqueUnit := parameters.countsPerTorque,
      forceUnit := .Newton, torqueUnit := .NewtonMeter }

end AdapterParameters

def mapAdapterParameters (now : TimePoint) (parameters : AdapterParameters) : Except String AdapterConfig := do
  let client ← parameters.client.validate now
  let diagnosticsRate ← validateAdapterConfig parameters.frameId parameters.wrenchTopic parameters.biasService
    parameters.diagnosticsRate
  let expectedRdtRate ←
    requireFinite "expected_rdt_rate must be finite and greater than zero" parameters.expectedRdtRate
  throwIf (expectedRdtRate ≤ 0) "expected_rdt_rate must be finite and greater than zero"
  let rateTolerance ← requireFinite "rate_tolerance must be between 0 and 1" parameters.rateTolerance
  throwIf (rateTolerance < 0 ∨ 1 < rateTolerance) "rate_tolerance must be between 0 and 1"
  return {
    client, frameId := parameters.frameId, wrenchTopic := parameters.wrenchTopic,
    biasService := parameters.biasService, allowBias := parameters.allowBias, diagnosticsRate,
    expectedRdtRate, rateTolerance }

/-! ## What is mapped -/

/-- What the configuration of a node promises. -/
structure AdapterConfig.Valid (now : TimePoint) (mapped : AdapterConfig) : Prop where
  client : mapped.client.Valid now
  frameId : isBlank mapped.frameId = false
  wrenchTopic : isBlank mapped.wrenchTopic = false
  biasService : isBlank mapped.biasService = false
  diagnosticsRate : 0 < mapped.diagnosticsRate
  period : 1 ≤ nanoseconds / mapped.diagnosticsRate ∧ nanoseconds / mapped.diagnosticsRate < maxTicks
  expectedRdtRate : 0 < mapped.expectedRdtRate
  rateTolerance : 0 ≤ mapped.rateTolerance ∧ mapped.rateTolerance ≤ 1

/-- The configuration says what the parameters say. -/
structure AdapterParameters.Maps (parameters : AdapterParameters) (mapped : AdapterConfig) : Prop where
  client : parameters.client = mapped.client.fields
  frameId : parameters.frameId = mapped.frameId
  wrenchTopic : parameters.wrenchTopic = mapped.wrenchTopic
  biasService : parameters.biasService = mapped.biasService
  allowBias : parameters.allowBias = mapped.allowBias
  diagnosticsRate : parameters.diagnosticsRate = .finite mapped.diagnosticsRate
  expectedRdtRate : parameters.expectedRdtRate = .finite mapped.expectedRdtRate
  rateTolerance : parameters.rateTolerance = .finite mapped.rateTolerance

/-- The blanks of the adapter are those of `std::isspace`. -/
theorem contains_adapterBlanks (character : Char) :
    adapterBlanks.contains character = isSpace character := by
  have heq : ∀ c : Char, character = c ↔ character.toNat = c.toNat := fun c => Char.toNat_inj.symm
  rw [Bool.eq_iff_iff]
  simp only [adapterBlanks, List.contains_iff_mem, List.mem_cons, List.not_mem_nil, or_false, heq, isSpace,
    Bool.or_eq_true, Bool.and_eq_true, decide_eq_true_eq]
  show character.toNat = 0x20 ∨ character.toNat = 0x09 ∨ character.toNat = 0x0a ∨ character.toNat = 0x0d ∨
    character.toNat = 0x0c ∨ character.toNat = 0x0b ↔ _
  omega

theorem nonEmpty_eq_ok_iff {name value : String} {u : Unit} :
    nonEmpty name value = .ok u ↔ isBlank value = false := by
  simp only [nonEmpty, throwIf_eq_ok_iff, contains_adapterBlanks, Bool.not_eq_true]
  rfl

theorem validateAdapterConfig_eq_ok_iff {frameId wrenchTopic biasService : String} {diagnosticsRate : Double}
    {rate : ℚ} :
    validateAdapterConfig frameId wrenchTopic biasService diagnosticsRate = .ok rate ↔
      isBlank frameId = false ∧ isBlank wrenchTopic = false ∧ isBlank biasService = false ∧
        diagnosticsRate = .finite rate ∧ 0 < rate ∧ 1 ≤ nanoseconds / rate ∧ nanoseconds / rate < maxTicks := by
  simp only [validateAdapterConfig, bind_eq_ok_iff, nonEmpty_eq_ok_iff, requireFinite_eq_ok_iff,
    throwIf_eq_ok_iff]
  constructor
  · rintro ⟨_, hframe, _, hwrench, _, hbias, q, hrate, _, hrange, heq⟩
    cases heq
    push Not at hrange
    exact ⟨hframe, hwrench, hbias, hrate, hrange⟩
  · rintro ⟨hframe, hwrench, hbias, hrate, hpos, hone, hmax⟩
    refine ⟨(), hframe, (), hwrench, (), hbias, rate, hrate, (), ?_, rfl⟩
    push Not
    exact ⟨hpos, hone, hmax⟩

/-- What is mapped is what the parameters say, and passes every check. -/
theorem maps_of_mapAdapterParameters {now : TimePoint} {parameters : AdapterParameters} {mapped : AdapterConfig}
    (h : mapAdapterParameters now parameters = .ok mapped) : parameters.Maps mapped ∧ mapped.Valid now := by
  simp only [mapAdapterParameters, bind_eq_ok_iff, validate_fields_iff, validateAdapterConfig_eq_ok_iff,
    requireFinite_eq_ok_iff, throwIf_eq_ok_iff] at h
  obtain ⟨client, ⟨hclient, hvalid⟩, rate, ⟨hframe, hwrench, hbias, hrate, hpos, hone, hmax⟩, expected, hexpected,
    _, hexpected', tolerance, htolerance, _, htolerance', heq⟩ := h
  cases heq
  push Not at htolerance'
  exact ⟨⟨hclient, rfl, rfl, rfl, rfl, hrate, hexpected, htolerance⟩,
    ⟨hvalid, hframe, hwrench, hbias, hpos, ⟨hone, hmax⟩, not_le.mp hexpected', htolerance'⟩⟩

/-- **The parameters that are mapped**: those of a valid configuration, which is the result. -/
theorem mapAdapterParameters_iff {now : TimePoint} {parameters : AdapterParameters} {mapped : AdapterConfig} :
    mapAdapterParameters now parameters = .ok mapped ↔ parameters.Maps mapped ∧ mapped.Valid now := by
  refine ⟨maps_of_mapAdapterParameters, ?_⟩
  rintro ⟨hmaps, hvalid⟩
  simp only [mapAdapterParameters, bind_eq_ok_iff, validate_fields_iff, validateAdapterConfig_eq_ok_iff,
    requireFinite_eq_ok_iff, throwIf_eq_ok_iff]
  refine ⟨mapped.client, ⟨hmaps.client, hvalid.client⟩, mapped.diagnosticsRate,
    ⟨hmaps.frameId ▸ hvalid.frameId, hmaps.wrenchTopic ▸ hvalid.wrenchTopic,
      hmaps.biasService ▸ hvalid.biasService, hmaps.diagnosticsRate, hvalid.diagnosticsRate, hvalid.period⟩,
    mapped.expectedRdtRate, hmaps.expectedRdtRate, (), not_le.mpr hvalid.expectedRdtRate, mapped.rateTolerance,
    hmaps.rateTolerance, (), ?_, ?_⟩
  · push Not
    exact hvalid.rateTolerance
  · rw [hmaps.frameId, hmaps.wrenchTopic, hmaps.biasService, hmaps.allowBias]
    rfl

/-- **What is mapped constructs**: the client accepts its configuration and the evaluator its rates, and
10^9 / `diagnostics_rate` nanoseconds is at least one and fits 64 bits. -/
theorem mapped_constructs {now : TimePoint} {parameters : AdapterParameters} {mapped : AdapterConfig}
    (h : mapAdapterParameters now parameters = .ok mapped) :
    mapped.client.validate now = .ok () ∧
      (∃ evaluator, makeEvaluator (.finite mapped.expectedRdtRate) (.finite mapped.rateTolerance) = .ok evaluator ∧
        evaluator.previous = {}) ∧
      1 ≤ ⌊nanoseconds / mapped.diagnosticsRate⌋ ∧ ⌊nanoseconds / mapped.diagnosticsRate⌋ < maxTicks ∧
      (parameters.useSensorCalibration = true → mapped.client.calibrationOverride = none) := by
  obtain ⟨hmaps, hvalid⟩ := maps_of_mapAdapterParameters h
  refine ⟨validate_iff.mpr hvalid.client, ?_, Int.le_floor.mpr (by exact_mod_cast hvalid.period.1),
    Int.floor_lt.mpr hvalid.period.2, fun huse => ?_⟩
  · rw [makeEvaluator]
    simp only [hvalid.expectedRdtRate, hvalid.rateTolerance, dif_pos, and_self]
    exact ⟨_, rfl, rfl⟩
  · have hoverride := congrArg ConfigFields.calibrationOverride hmaps.client
    simp only [AdapterParameters.client, huse, if_true, Config.fields] at hoverride
    exact Option.map_eq_none_iff.mp hoverride.symm

/-- The defaults, at the start of the clock. -/
theorem mapped_constructs_default :
    ∃ mapped, mapAdapterParameters 0 {} = .ok mapped ∧ mapped.client = {} ∧
      mapped.client.validate 0 = .ok () := by
  have hmapped : mapAdapterParameters 0 {} = .ok {
      client := {}, frameId := "netft_link", wrenchTopic := "/netft/wrench", biasService := "/netft/bias",
      diagnosticsRate := 1, expectedRdtRate := 2000, rateTolerance := 1 / 5 } := by
    decide +kernel
  exact ⟨_, hmapped, rfl, (mapped_constructs hmapped).1⟩

end NetFT.Ros
