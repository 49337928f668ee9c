/-
# NetFT.Plugin.Parameters — `on_init` of the plugin (`netft_hardware_interface.cpp`).

`on_init` checks the declaration of the hardware and reads its parameters, which are texts.  `std::stod` and
`std::stol` are arguments of the model, as is the expansion of service names: each gives what it read and how
many characters it took, or throws.

* `HardwareInfo.Declares` is what a declaration has to be, `Says` what the parameters say, each with its
  default.
* **`onInit_iff`**: `on_init` succeeds on these hardware descriptions, where the one of the base class does,
  and keeps what they say.
* `onInit_constructs`: what it keeps, the constructors in `on_configure` accept.
-/
import NetFT.Plugin.Machine
import NetFT.Plugin.Names
import NetFT.Ros.AdapterConfig

namespace NetFT.Plugin

set_option autoImplicit false

open Library (Double bind_eq_ok_iff throwIf throwIf_eq_ok_iff forM_eq_ok_iff)
open XmlConfig (ascii)
open Ros (nanoseconds adapterBlanks)

/-! ## Hardware descriptions -/

/-- A state interface that the hardware description declares. -/
structure InterfaceInfo where
  name : List UInt8
  dataType : List UInt8 := ascii "double"
  initialValue : List UInt8 := []
  size : Int := 1
  deriving DecidableEq, Repr

/-- A sensor that it declares. -/
structure ComponentInfo where
  name : List UInt8
  stateInterfaces : List InterfaceInfo
  deriving DecidableEq, Repr

/-- Of the components that are not allowed only the names are kept. -/
structure HardwareInfo where
  joints : List String := []
  gpios : List String := []
  transmissions : List String := []
  sensors : List ComponentInfo
  hardwareParameters : String → Option (List UInt8) := fun _ => none

/-- What the standard library and `rclcpp` do. -/
structure Conversions extends Numbers where
  expandName : List UInt8 → List UInt8 → Except String Unit

/-- What `on_init` keeps for the other callbacks. -/
structure Hardware where
  sensorName : List UInt8
  clientConfig : Config
  activationTimeout : Seconds
  diagnosticsRate : ℚ
  expectedRdtRate : ℚ
  rateTolerance : ℚ
  allowBias : Bool
  rosNameToken : List UInt8
  biasServiceName : List UInt8
  deriving DecidableEq, Repr

/-- The six interfaces that a sensor must have, in this order. -/
def kInterfaceNames : List (List UInt8) :=
  [ascii "force.x", ascii "force.y", ascii "force.z", ascii "torque.x", ascii "torque.y", ascii "torque.z"]

/-! ## Single parameters -/

section

variable (conversions : Conversions) (parameters : String → Option (List UInt8))

/-- `std::stod` on the whole text, finite. -/
def finiteNumber (text : List UInt8) : Option ℚ :=
  match conversions.stod text with
  | some (.finite value, consumed) => if consumed = text.length then some value else none
  | _ => none

/-- `parse_double`: a finite number, or the fallback without the parameter. -/
def parseDouble (field : String) (fallback : ℚ) : Except String ℚ :=
  match parameters field with
  | none => .ok fallback
  | some text =>
    match finiteNumber conversions text with
    | some value => .ok value
    | none => .error (field ++ " must be a finite number")

/-- `parse_port`: an integer from 1 to 65535. -/
def parsePort (field : String) (fallback : Int) : Except String Int :=
  match parameters field with
  | none => .ok fallback
  | some text =>
    match conversions.stol text with
    | some (value, consumed) =>
      if consumed ≠ text.length ∨ value < 1 ∨ 65535 < value then
        .error (field ++ " must be an integer between 1 and 65535")
      else .ok value
    | none => .error (field ++ " must be an integer between 1 and 65535")

/-- `parse_bool`: one of the spellings of true and false. -/
def parseBool (field : String) (fallback : Bool) : Except String Bool :=
  match parameters field with
  | none => .ok fallback
  | some text =>
    if text = ascii "true" ∨ text = ascii "True" then .ok true
    else if text = ascii "false" ∨ text = ascii "False" then .ok false
    else .error (field ++ " must be true or false")

end

/-! ## `on_init` -/

/-- What `validate_hardware_info` asks of one interface. -/
def validateInterface (conversions : Conversions) (api : Api) (declared : InterfaceInfo × List UInt8) :
    Except String Unit := do
  throwIf (declared.1.name ≠ declared.2)
    "state interfaces must be force.x, force.y, force.z, torque.x, torque.y, torque.z"
  throwIf (declared.1.dataType ≠ ascii "double" ∧ ¬ (api = .Legacy ∧ declared.1.dataType = []))
    "all state interfaces must use data_type double"
  throwIf (api = .Modern ∧ declared.1.size ≠ 1) "all state interfaces must be scalar (size 1)"
  throwIf (declared.1.initialValue ≠ [] ∧ finiteNumber conversions declared.1.initialValue = none)
    "state interface initial_value must be a finite double"

/-- `validate_hardware_info`, with the name that it keeps. -/
def validateHardwareInfo (conversions : Conversions) (api : Api) (info : HardwareInfo) :
    Except String (List UInt8) := do
  throwIf (info.joints ≠ [] ∨ info.gpios ≠ [] ∨ info.transmissions ≠ [])
    "sensor hardware must not declare joints, GPIOs, or transmissions"
  match info.sensors with
  | [sensor] => do
    throwIf (sensor.name = []) "sensor name must be non-empty"
    throwIf (sensor.stateInterfaces.length ≠ kInterfaceNames.length)
      "sensor must declare exactly six state interfaces"
    (sensor.stateInterfaces.zip kInterfaceNames).forM (validateInterface conversions api)
    return sensor.name
  | _ => .error "exactly one sensor is required"

/-- The calibration that replaces the sensor's. -/
def parseOverride (conversions : Conversions) (parameters : String → Option (List UInt8))
    (useSensorCalibration : Bool) : Except String (Option Calibration) :=
  if useSensorCalibration then .ok none
  else do
    let countsPerForceUnit ← parseDouble conversions parameters "counts_per_force" 1000000
    let countsPerTorqueUnit ← parseDouble conversions parameters "counts_per_torque" 1000000
    return some { countsPerForceUnit, countsPerTorqueUnit, forceUnit := .Newton, torqueUnit := .NewtonMeter }

/-- The client's part of `parse_parameters`. -/
def parseConfig (conversions : Conversions) (now : TimePoint) (parameters : String → Option (List UInt8)) :
    Except String Config := do
  let sensorHost := ((parameters "sensor_ip").map textOf).getD ({} : Config).sensorHost
  throwIf (sensorHost.toList.all (adapterBlanks.contains ·) = true) "sensor_ip must be non-empty"
  let rdtPort ← parsePort conversions parameters "sensor_port" 49152
  let httpPort ← parsePort conversions parameters "http_port" 80
  let receiveTimeout ← parseDouble conversions parameters "receive_timeout" (1 / 10)
  let configurationConnectTimeout ← parseDouble conversions parameters "configuration_connect_timeout" (1 / 2)
  let configurationTimeout ← parseDouble conversions parameters "configuration_timeout" 1
  let useSensorCalibration ← parseBool parameters "use_sensor_calibration" true
  let calibrationOverride ← parseOverride conversions parameters useSensorCalibration
  let config : Config := {
    sensorHost, rdtPort, httpPort, receiveTimeout, configurationConnectTimeout, configurationTimeout,
    recoveryPolicy := .FailStop, calibrationOverride }
  config.validate now
  return config

/-- The name of the bias service must expand. -/
def expandService (conversions : Conversions) (biasService node : List UInt8) : Except String Unit :=
  match conversions.expandName biasService node with
  | .error what => .error ("bias_service must be a valid ROS service name: " ++ what)
  | .ok () => .ok ()

/-- `parse_parameters`. -/
def parseParameters (conversions : Conversions) (now : TimePoint) (sensorName : List UInt8)
    (parameters : String → Option (List UInt8)) : Except String Hardware := do
  let clientConfig ← parseConfig conversions now parameters
  let activationTimeout ← parseDouble conversions parameters "activation_timeout" 2
  let diagnosticsRate ← parseDouble conversions parameters "diagnostics_rate" 1
  let expectedRdtRate ← parseDouble conversions parameters "expected_rdt_rate" 2000
  let rateTolerance ← parseDouble conversions parameters "rate_tolerance" (1 / 5)
  let allowBias ← parseBool parameters "allow_bias" true
  let rosNameToken := collisionSafeNameToken sensorName
  let biasService := biasServiceName (parameters "bias_service") rosNameToken
  throwIf (activationTimeout ≤ 0 ∨ (maxTicks : ℚ) ≤ nanoseconds * activationTimeout)
    "activation_timeout must be greater than zero"
  throwIf (diagnosticsRate ≤ 0 ∨ nanoseconds / diagnosticsRate < 1 ∨
      (maxTicks : ℚ) ≤ nanoseconds / diagnosticsRate)
    "diagnostics_rate must be greater than zero"
  throwIf (expectedRdtRate ≤ 0) "expected_rdt_rate must be greater than zero"
  throwIf (rateTolerance < 0 ∨ 1 < rateTolerance) "rate_tolerance must be between zero and one"
  expandService conversions biasService (auxiliaryNodeName rosNameToken)
  return {
    sensorName, clientConfig, activationTimeout, diagnosticsRate, expectedRdtRate, rateTolerance, allowBias,
    rosNameToken, biasServiceName := biasService }

/-- `on_init`, which returns ERROR with what it logs; `initialized` is the success of
`SensorInterface::on_init`, whose failure it does not log. -/
def onInit (conversions : Conversions) (api : Api) (now : TimePoint) (initialized : Bool) (info : HardwareInfo) :
    Except String Hardware := do
  throwIf (initialized = false) ""
  let sensorName ← validateHardwareInfo conversions api info
  parseParameters conversions now sensorName info.hardwareParameters

/-! ## What they accept -/

/-- A value that is given as a text, or the default. -/
def Gives {α : Type} (read : List UInt8 → α → Prop) (parameter : Option (List UInt8)) (fallback value : α) :
    Prop :=
  match parameter with
  | none => value = fallback
  | some text => read text value

/-- The text is a finite number. -/
def Number (conversions : Conversions) (text : List UInt8) (value : ℚ) : Prop :=
  conversions.stod text = some (.finite value, text.length)

/-- The text is a port. -/
def Port (conversions : Conversions) (text : List UInt8) (value : Int) : Prop :=
  conversions.stol text = some (value, text.length) ∧ 1 ≤ value ∧ value ≤ 65535

/-- The text says true or false. -/
def Truth (text : List UInt8) (value : Bool) : Prop :=
  text = ascii (if value then "true" else "false") ∨ text = ascii (if value then "True" else "False")

/-- An interface of one double. -/
structure InterfaceInfo.Scalar (conversions : Conversions) (api : Api) (interface : InterfaceInfo) : Prop where
  dataType : interface.dataType = ascii "double" ∨ api = .Legacy ∧ interface.dataType = []
  size : api = .Modern → interface.size = 1
  initialValue : interface.initialValue = [] ∨ ∃ value, Number conversions interface.initialValue value

/-- One sensor with the six interfaces, and nothing else. -/
structure HardwareInfo.Declares (conversions : Conversions) (api : Api) (info : HardwareInfo)
    (sensorName : List UInt8) : Prop where
  alone : info.joints = [] ∧ info.gpios = [] ∧ info.transmissions = []
  sensor : ∃ interfaces, info.sensors = [{ name := sensorName, stateInterfaces := interfaces }] ∧
    interfaces.map (·.name) = kInterfaceNames ∧ ∀ interface ∈ interfaces, interface.Scalar conversions api
  named : sensorName ≠ []

variable {conversions : Conversions} {parameters : String → Option (List UInt8)} {field : String} {api : Api}
  {now : TimePoint}

theorem finiteNumber_eq_some_iff {text : List UInt8} {value : ℚ} :
    finiteNumber conversions text = some value ↔ Number conversions text value := by
  unfold finiteNumber Number
  split
  · rename_i q consumed hstod
    rw [hstod]
    split_ifs with hall
    · simp [hall]
    · simp [hall]
  · rename_i hstod
    exact ⟨nofun, fun h => absurd h (hstod _ _)⟩

/-- What `parse_double` accepts. -/
theorem parseDouble_eq_ok_iff {fallback value : ℚ} :
    parseDouble conversions parameters field fallback = .ok value ↔
      Gives (Number conversions) (parameters field) fallback value := by
  unfold parseDouble Gives
  split
  · simp [eq_comm]
  · rename_i text _
    rw [← finiteNumber_eq_some_iff]
    split
    · rename_i hnumber
      simp [hnumber]
    · rename_i hnumber
      simp [hnumber]

/-- What `parse_port` accepts. -/
theorem parsePort_eq_ok_iff {fallback value : Int} :
    parsePort conversions parameters field fallback = .ok value ↔
      Gives (Port conversions) (parameters field) fallback value := by
  unfold parsePort Gives Port
  split
  · simp [eq_comm]
  · split
    · rename_i hstol
      rw [hstol]
      split_ifs with hrange
      · refine ⟨nofun, ?_⟩
        rintro ⟨heq, hpos, hmax⟩
        cases heq
        omega
      · push Not at hrange
        constructor
        · rintro ⟨⟩
          exact ⟨by rw [hrange.1], hrange.2⟩
        · rintro ⟨heq, -⟩
          cases heq
          rfl
    · rename_i hstol
      rw [hstol]
      exact ⟨nofun, fun h => (by cases h.1)⟩

/-- What `parse_bool` accepts. -/
theorem parseBool_eq_ok_iff {fallback value : Bool} :
    parseBool parameters field fallback = .ok value ↔ Gives Truth (parameters field) fallback value := by
  unfold parseBool Gives Truth
  split
  · simp [eq_comm]
  · rename_i text _
    have hdistinct : ascii "true" ≠ ascii "false" ∧ ascii "true" ≠ ascii "False" ∧
        ascii "True" ≠ ascii "false" ∧ ascii "True" ≠ ascii "False" := by decide
    cases value with
    | true =>
      show _ ↔ text = ascii "true" ∨ text = ascii "True"
      split_ifs with htrue hfalse
      · exact ⟨fun _ => htrue, fun _ => rfl⟩
      · exact ⟨fun h => (by cases h), fun h => absurd h htrue⟩
      · exact ⟨fun h => (by cases h), fun h => absurd h htrue⟩
    | false =>
      show _ ↔ text = ascii "false" ∨ text = ascii "False"
      split_ifs with htrue hfalse
      · refine ⟨fun h => (by cases h), fun h => ?_⟩
        rcases htrue with rfl | rfl <;> simp [hdistinct] at h
      · exact ⟨fun _ => hfalse, fun _ => rfl⟩
      · exact ⟨fun h => (by cases h), fun h => absurd h hfalse⟩

/-! ## The declaration -/

/-- An interface passes exactly if it has the name expected of it and is scalar. -/
theorem validateInterface_eq_ok_iff {declared : InterfaceInfo × List UInt8} {u : Unit} :
    validateInterface conversions api declared = .ok u ↔
      declared.1.name = declared.2 ∧ declared.1.Scalar conversions api := by
  simp only [validateInterface, bind_eq_ok_iff, throwIf_eq_ok_iff, not_and, not_not, ne_eq,
    Classical.not_imp]
  have hnumber : ¬ finiteNumber conversions declared.1.initialValue = none ↔
      ∃ value, Number conversions declared.1.initialValue value := by
    simp only [← finiteNumber_eq_some_iff]
    exact Option.ne_none_iff_exists'
  constructor
  · rintro ⟨_, hname, _, htype, _, hsize, hvalue⟩
    refine ⟨hname, ?_, hsize, ?_⟩
    · by_cases hdouble : declared.1.dataType = ascii "double"
      · exact .inl hdouble
      · exact .inr (htype hdouble)
    · by_cases hempty : declared.1.initialValue = []
      · exact .inl hempty
      · exact .inr (hnumber.mp (hvalue hempty))
  · rintro ⟨hname, hscalar⟩
    exact ⟨(), hname, (), fun h => hscalar.dataType.resolve_left h, (), hscalar.size,
      fun h => hnumber.mpr (hscalar.initialValue.resolve_left h)⟩

/-- Interfaces against their names, one by one. -/
theorem forall_zip_iff {P : InterfaceInfo → Prop} {interfaces : List InterfaceInfo} {names : List (List UInt8)} :
    (interfaces.length = names.length ∧ ∀ declared ∈ interfaces.zip names, declared.1.name = declared.2 ∧ P declared.1) ↔
      interfaces.map (·.name) = names ∧ ∀ interface ∈ interfaces, P interface := by
  induction interfaces generalizing names with
  | nil =>
    cases names <;> simp
  | cons interface interfaces ih =>
    cases names with
    | nil => simp
    | cons name names =>
      simp only [List.length_cons, Nat.add_right_cancel_iff, List.zip_cons_cons, List.forall_mem_cons,
        List.map_cons, List.cons.injEq]
      constructor
      · rintro ⟨hlength, ⟨hname, hP⟩, hrest⟩
        obtain ⟨hnames, hall⟩ := ih.mp ⟨hlength, hrest⟩
        exact ⟨⟨hname, hnames⟩, hP, hall⟩
      · rintro ⟨⟨hname, hnames⟩, hP, hall⟩
        obtain ⟨hlength, hrest⟩ := ih.mpr ⟨hnames, hall⟩
        exact ⟨hlength, ⟨hname, hP⟩, hrest⟩

/-- **A description passes exactly if it declares the one sensor**. -/
theorem validateHardwareInfo_eq_ok_iff {info : HardwareInfo} {sensorName : List UInt8} :
    validateHardwareInfo conversions api info = .ok sensorName ↔ info.Declares conversions api sensorName := by
  simp only [validateHardwareInfo, bind_eq_ok_iff, throwIf_eq_ok_iff]
  constructor
  · rintro ⟨_, halone, h⟩
    push Not at halone
    split at h
    · rename_i sensor hsensors
      simp only [bind_eq_ok_iff, throwIf_eq_ok_iff, forM_eq_ok_iff, validateInterface_eq_ok_iff, not_not, ne_eq]
        at h
      obtain ⟨_, hnamed, _, hlength, _, hall, heq⟩ := h
      cases heq
      exact ⟨halone, ⟨_, hsensors, forall_zip_iff.mp ⟨hlength, hall⟩⟩, hnamed⟩
    · cases h
  · rintro ⟨halone, ⟨interfaces, hsensors, hnames⟩, hnamed⟩
    refine ⟨(), by simp [halone], ?_⟩
    rw [hsensors]
    obtain ⟨hlength, hall⟩ := forall_zip_iff.mpr hnames
    simp only [bind_eq_ok_iff, throwIf_eq_ok_iff, forM_eq_ok_iff, validateInterface_eq_ok_iff, not_not, ne_eq]
    exact ⟨(), hnamed, (), hlength, (), hall, rfl⟩

/-! ## The parameters -/

/-- What the parameters say, each with its default. -/
structure Says (conversions : Conversions) (parameters : String → Option (List UInt8)) (hardware : Hardware) :
    Prop where
  sensorHost : hardware.clientConfig.sensorHost =
    ((parameters "sensor_ip").map textOf).getD ({} : Config).sensorHost
  rdtPort : Gives (Port conversions) (parameters "sensor_port") 49152 hardware.clientConfig.rdtPort
  httpPort : Gives (Port conversions) (parameters "http_port") 80 hardware.clientConfig.httpPort
  receiveTimeout : Gives (Number conversions) (parameters "receive_timeout") (1 / 10)
    hardware.clientConfig.receiveTimeout
  configurationConnectTimeout : Gives (Number conversions) (parameters "configuration_connect_timeout") (1 / 2)
    hardware.clientConfig.configurationConnectTimeout
  configurationTimeout : Gives (Number conversions) (parameters "configuration_timeout") 1
    hardware.clientConfig.configurationTimeout
  calibration : ∃ useSensorCalibration,
    Gives Truth (parameters "use_sensor_calibration") true useSensorCalibration ∧
      (useSensorCalibration = true → hardware.clientConfig.calibrationOverride = none) ∧
      (useSensorCalibration = false → ∃ force torque,
        Gives (Number conversions) (parameters "counts_per_force") 1000000 force ∧
        Gives (Number conversions) (parameters "counts_per_torque") 1000000 torque ∧
        hardware.clientConfig.calibrationOverride = some ⟨force, torque, .Newton, .NewtonMeter⟩)
  /-- What no parameter sets. -/
  rest : hardware.clientConfig.reconnectInitialDelay = 1 / 4 ∧ hardware.clientConfig.reconnectMaxDelay = 5 ∧
    hardware.clientConfig.sampleRateLimitHz = 0 ∧
    hardware.clientConfig.deliverSamplesWithErrorStatus = false ∧
    hardware.clientConfig.recoveryPolicy = .FailStop
  activationTimeout : Gives (Number conversions) (parameters "activation_timeout") 2 hardware.activationTimeout
  diagnosticsRate : Gives (Number conversions) (parameters "diagnostics_rate") 1 hardware.diagnosticsRate
  expectedRdtRate : Gives (Number conversions) (parameters "expected_rdt_rate") 2000 hardware.expectedRdtRate
  rateTolerance : Gives (Number conversions) (parameters "rate_tolerance") (1 / 5) hardware.rateTolerance
  allowBias : Gives Truth (parameters "allow_bias") true hardware.allowBias
  rosNameToken : hardware.rosNameToken = collisionSafeNameToken hardware.sensorName
  biasService : hardware.biasServiceName = biasServiceName (parameters "bias_service") hardware.rosNameToken

/-- What the parameters have to be. -/
structure Hardware.Valid (conversions : Conversions) (now : TimePoint) (hardware : Hardware) : Prop where
  config : hardware.clientConfig.Valid now
  activationTimeout : 0 < hardware.activationTimeout ∧ nanoseconds * hardware.activationTimeout < maxTicks
  diagnosticsRate : 0 < hardware.diagnosticsRate
  period : 1 ≤ nanoseconds / hardware.diagnosticsRate ∧ nanoseconds / hardware.diagnosticsRate < maxTicks
  expectedRdtRate : 0 < hardware.expectedRdtRate
  rateTolerance : 0 ≤ hardware.rateTolerance ∧ hardware.rateTolerance ≤ 1
  service : conversions.expandName hardware.biasServiceName (auxiliaryNodeName hardware.rosNameToken) = .ok ()

/-- The override is read only where the sensor's calibration is not used. -/
theorem parseOverride_eq_ok_iff {useSensorCalibration : Bool} {override : Option Calibration} :
    parseOverride conversions parameters useSensorCalibration = .ok override ↔
      (useSensorCalibration = true → override = none) ∧
      (useSensorCalibration = false → ∃ force torque,
        Gives (Number conversions) (parameters "counts_per_force") 1000000 force ∧
        Gives (Number conversions) (parameters "counts_per_torque") 1000000 torque ∧
        override = some ⟨force, torque, .Newton, .NewtonMeter⟩) := by
  cases useSensorCalibration with
  | true =>
    show Except.ok none = Except.ok override ↔ _
    simp [eq_comm]
  | false =>
    simp only [parseOverride, Bool.false_eq_true, if_false, bind_eq_ok_iff, parseDouble_eq_ok_iff, false_imp_iff,
      true_and, forall_const]
    constructor
    · rintro ⟨force, hforce, torque, htorque, heq⟩
      cases heq
      exact ⟨force, torque, hforce, htorque, rfl⟩
    · rintro ⟨force, torque, hforce, htorque, rfl⟩
      exact ⟨force, hforce, torque, htorque, rfl⟩

/-- The host check of `parse_parameters` is the one of `validate`. -/
theorem host_not_blank {host : String} :
    ¬ host.toList.all (adapterBlanks.contains ·) = true ↔ isBlank host = false := by
  simp only [Ros.contains_adapterBlanks, Bool.not_eq_true]
  rfl

/-- The client's configuration has what the parameters say. -/
theorem parseConfig_eq_ok_iff {config : Config} :
    parseConfig conversions now parameters = .ok config ↔
      (config.sensorHost = ((parameters "sensor_ip").map textOf).getD ({} : Config).sensorHost ∧
        Gives (Port conversions) (parameters "sensor_port") 49152 config.rdtPort ∧
        Gives (Port conversions) (parameters "http_port") 80 config.httpPort ∧
        Gives (Number conversions) (parameters "receive_timeout") (1 / 10) config.receiveTimeout ∧
        Gives (Number conversions) (parameters "configuration_connect_timeout") (1 / 2)
          config.configurationConnectTimeout ∧
        Gives (Number conversions) (parameters "configuration_timeout") 1 config.configurationTimeout ∧
        (∃ use, Gives Truth (parameters "use_sensor_calibration") true use ∧
          parseOverride conversions parameters use = .ok config.calibrationOverride) ∧
        config.reconnectInitialDelay = 1 / 4 ∧ config.reconnectMaxDelay = 5 ∧ config.sampleRateLimitHz = 0 ∧
        config.deliverSamplesWithErrorStatus = false ∧ config.recoveryPolicy = .FailStop) ∧
      config.Valid now := by
  simp only [parseConfig, bind_eq_ok_iff, throwIf_eq_ok_iff, host_not_blank, parsePort_eq_ok_iff,
    parseDouble_eq_ok_iff, parseBool_eq_ok_iff, validate_iff]
  constructor
  · rintro ⟨_, -, rdt, hrdt, http, hhttp, receive, hreceive, connect, hconnect, total, htotal, use, huse, override,
      hoverride, _, hvalid, heq⟩
    cases heq
    exact ⟨⟨rfl, hrdt, hhttp, hreceive, hconnect, htotal, ⟨use, huse, hoverride⟩, rfl, rfl, rfl, rfl, rfl⟩, hvalid⟩
  · rintro ⟨⟨hhost, hrdt, hhttp, hreceive, hconnect, htotal, ⟨use, huse, hoverride⟩, hrest⟩, hvalid⟩
    have hblank := hvalid.sensorHost
    obtain ⟨_, _, _, _, _, _, _, _, _, _, _, _⟩ := config
    obtain ⟨rfl, rfl, rfl, rfl, rfl⟩ := hrest
    cases hhost
    exact ⟨(), hblank, _, hrdt, _, hhttp, _, hreceive, _, hconnect, _, htotal, use, huse, _, hoverride, (), hvalid, rfl⟩

theorem expandService_eq_ok_iff {biasService node : List UInt8} {u : Unit} :
    expandService conversions biasService node = .ok u ↔ conversions.expandName biasService node = .ok () := by
  unfold expandService
  split
  · rename_i hexpand
    simp [hexpand]
  · rename_i hexpand
    simp [hexpand]

/-- **The parameters pass exactly if they say a valid configuration.** -/
theorem parseParameters_eq_ok_iff {sensorName : List UInt8} {hardware : Hardware} :
    parseParameters conversions now sensorName parameters = .ok hardware ↔
      hardware.sensorName = sensorName ∧ Says conversions parameters hardware ∧
        hardware.Valid conversions now := by
  simp only [parseParameters, bind_eq_ok_iff, throwIf_eq_ok_iff, parseConfig_eq_ok_iff, parseOverride_eq_ok_iff,
    parseDouble_eq_ok_iff, parseBool_eq_ok_iff, expandService_eq_ok_iff]
  constructor
  · rintro ⟨config, ⟨⟨hhost, hrdt, hhttp, hreceive, hconnect, htotal, hoverride, hrest⟩, hvalid⟩, activation,
      hactivation, rate, hrate, expected, hexpected, tolerance, htolerance, bias, hbias, _, hactivation', _, hrate', _,
      hexpected', _, htolerance', _, hservice, heq⟩
    cases heq
    push Not at hactivation' hrate' htolerance'
    exact ⟨rfl, ⟨hhost, hrdt, hhttp, hreceive, hconnect, htotal, hoverride, hrest, hactivation, hrate, hexpected,
      htolerance, hbias, rfl, rfl⟩, ⟨hvalid, hactivation', hrate'.1, hrate'.2, not_le.mp hexpected', htolerance',
      hservice⟩⟩
  · rintro ⟨rfl, hmeant, hvalid⟩
    have hservice := hvalid.service
    rw [hmeant.biasService, hmeant.rosNameToken] at hservice
    refine ⟨hardware.clientConfig, ⟨⟨hmeant.sensorHost, hmeant.rdtPort, hmeant.httpPort, hmeant.receiveTimeout,
      hmeant.configurationConnectTimeout, hmeant.configurationTimeout, hmeant.calibration, hmeant.rest⟩, hvalid.config⟩,
      hardware.activationTimeout, hmeant.activationTimeout, hardware.diagnosticsRate, hmeant.diagnosticsRate,
      hardware.expectedRdtRate, hmeant.expectedRdtRate, hardware.rateTolerance, hmeant.rateTolerance,
      hardware.allowBias, hmeant.allowBias, (), ?_, (), ?_, (), not_le.mpr hvalid.expectedRdtRate, (), ?_, (),
      hservice, ?_⟩
    · push Not
      exact hvalid.activationTimeout
    · push Not
      exact ⟨hvalid.diagnosticsRate, hvalid.period⟩
    · push Not
      exact hvalid.rateTolerance
    · rw [← hmeant.rosNameToken, ← hmeant.biasService]
      rfl

/-- **`on_init` accepts a declaration of one sensor with valid parameters, and keeps what they say**, where
the base class is initialized. -/
theorem onInit_iff {initialized : Bool} {info : HardwareInfo} {hardware : Hardware} :
    onInit conversions api now initialized info = .ok hardware ↔
      initialized = true ∧ info.Declares conversions api hardware.sensorName ∧
        Says conversions info.hardwareParameters hardware ∧ hardware.Valid conversions now := by
  simp only [onInit, bind_eq_ok_iff, throwIf_eq_ok_iff, validateHardwareInfo_eq_ok_iff, parseParameters_eq_ok_iff,
    Bool.not_eq_false]
  constructor
  · rintro ⟨_, hbase, _, hdeclares, rfl, hmeant, hvalid⟩
    exact ⟨hbase, hdeclares, hmeant, hvalid⟩
  · rintro ⟨hbase, hdeclares, hmeant, hvalid⟩
    exact ⟨(), hbase, _, hdeclares, rfl, hmeant, hvalid⟩

/-- A sensor without parameters, on an `rclcpp` that expands every name. -/
example : (onInit { stod := fun _ => none, stol := fun _ => none, expandName := fun _ _ => .ok () } .Modern 0 true
    { sensors := [{ name := ascii "ft", stateInterfaces := kInterfaceNames.map fun name => { name } }] }).toOption.map
      (·.biasServiceName) = some (ascii "/ft/bias") := by
  decide +kernel

/-- What `on_init` keeps, `on_configure` constructs. -/
theorem onInit_constructs {initialized : Bool} {info : HardwareInfo} {hardware : Hardware}
    (h : onInit conversions api now initialized info = .ok hardware) :
    hardware.clientConfig.validate now = .ok () ∧
      ∃ evaluator, Ros.makeEvaluator (.finite hardware.expectedRdtRate) (.finite hardware.rateTolerance) =
        .ok evaluator := by
  simp only [onInit, bind_eq_ok_iff, parseParameters_eq_ok_iff] at h
  obtain ⟨_, -, _, -, -, -, hvalid⟩ := h
  refine ⟨validate_iff.mpr hvalid.config, ?_⟩
  rw [Ros.makeEvaluator]
  simp only [hvalid.expectedRdtRate, hvalid.rateTolerance, dif_pos, and_self]
  exact ⟨_, rfl⟩

end NetFT.Plugin
