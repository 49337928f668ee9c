/-
# NetFT.CheckReport — the report of the check tool, read back.

What a program that runs the tool makes of its output: it parses the text, takes each member by its name
and converts it.  A double is printed with `max_digits10` digits, a counter in decimal, the device status in
hexadecimal, and what is not known is `null`.

* `readReport` is the reader, `reportOf` is what the tool wanted to say.
* **`readReport_serialize`**: the reader has every field as the tool had it, the doubles exactly.
-/
import NetFT.CheckMain
import NetFT.SensorPage

namespace NetFT.CheckMain

set_option autoImplicit false

open Library (Double Stream bind_eq_ok_iff)
open Library.Json
open Library.Decimal (read ofRat_read_general mem_general)
open XmlConfig (ascii characters characters_bytes numberCharacter_byte)

/-! ## The reader -/

/-- What a reader of the report learns. -/
structure Report where
  configuration : Option (CalibrationSource × Calibration)
  endpoint : List UInt8
  requestedDurationS : Double
  elapsedS : Double
  receiveRateHz : Double
  lastForceN : Option (Triple Double)
  lastTorqueNm : Option (Triple Double)
  lastRdtSequence : Option UInt32
  lastFtSequence : Option UInt32
  deviceStatus : UInt32
  deviceErrorCount : ℕ
  duplicateCount : ℕ
  lostCount : ℕ
  malformedCount : ℕ
  outOfOrderCount : ℕ
  reconnectCount : ℕ
  sampleCount : ℕ
  timeoutCount : ℕ
  warningCount : ℕ
  deriving DecidableEq

/-- A number as a double. -/
def readDouble : Value → Option Double
  | .number text => (read (characters text)).map Double.ofRat
  | _ => none

/-- A count is a finite number. -/
def readCount (value : Value) : Option ℚ :=
  match readDouble value with
  | some (.finite q) => some q
  | _ => none

/-- A counter is a number of digits alone. -/
def readCounter : Value → Option ℕ
  | .number text => if isDigits text then some (Nat.ofDigitChars 10 (characters text) 0) else none
  | _ => none

/-- A value, or `null`. -/
def readOptional {α : Type} (readValue : Value → Option α) : Value → Option (Option α)
  | .null => some none
  | value => (readValue value).map some

def readSequence (value : Value) : Option UInt32 := (readCounter value).map UInt32.ofNat

/-- The three values of a force or a torque. -/
def readTriple : Value → Option (Triple Double)
  | .array [x, y, z] => do return ⟨← readDouble x, ← readDouble y, ← readDouble z⟩
  | _ => none

/-- Digits after `0x`. -/
def readStatus : Value → Option UInt32
  | .string (0x30 :: 0x78 :: digits) => (hexNumber digits).map UInt32.ofNat
  | _ => none

/-- The source of a calibration by its name. -/
def readSource : Value → Option CalibrationSource
  | .string text => [.Sensor, .Override].find? fun source => ascii (configurationSource source) = text
  | _ => none

/-- A force unit by its name. -/
def readForceUnit : Value → Option ForceUnit
  | .string text => forceUnitFromString text
  | _ => none

def readTorqueUnit : Value → Option TorqueUnit
  | .string text => torqueUnitFromString text
  | _ => none

def readString : Value → Option (List UInt8)
  | .string text => some text
  | _ => none

/-- The member with a name. -/
def field {α : Type} (members : List (List UInt8 × Value)) (name : String) (readValue : Value → Option α) :
    Option α :=
  (members.lookup (ascii name)).bind readValue

/-- The calibration, if the tool had one. -/
def readCalibration (members : List (List UInt8 × Value)) :
    Option (Option (CalibrationSource × Calibration)) := do
  let source ← field members "configuration_source" (readOptional readSource)
  let forceUnit ← field members "force_unit" (readOptional readForceUnit)
  let torqueUnit ← field members "torque_unit" (readOptional readTorqueUnit)
  let countsPerForceUnit ← field members "counts_per_force_unit" (readOptional readCount)
  let countsPerTorqueUnit ← field members "counts_per_torque_unit" (readOptional readCount)
  return do
    return (← source, {
      countsPerForceUnit := ← countsPerForceUnit
      countsPerTorqueUnit := ← countsPerTorqueUnit
      forceUnit := ← forceUnit
      torqueUnit := ← torqueUnit })

/-- The fields of a report from the members of the object. -/
def readMembers (members : List (List UInt8 × Value)) : Option Report := do
  let configuration ← readCalibration members
  let endpoint ← field members "endpoint" readString
  let requestedDurationS ← field members "requested_duration_s" readDouble
  let elapsedS ← field members "elapsed_s" readDouble
  let receiveRateHz ← field members "receive_rate_hz" readDouble
  let lastForceN ← field members "last_force_n" (readOptional readTriple)
  let lastTorqueNm ← field members "last_torque_nm" (readOptional readTriple)
  let lastRdtSequence ← field members "last_rdt_sequence" (readOptional readSequence)
  let lastFtSequence ← field members "last_ft_sequence" (readOptional readSequence)
  let deviceStatus ← field members "device_status" readStatus
  let deviceErrorCount ← field members "device_error_count" readCounter
  let duplicateCount ← field members "duplicate_count" readCounter
  let lostCount ← field members "lost_count" readCounter
  let malformedCount ← field members "malformed_count" readCounter
  let outOfOrderCount ← field members "out_of_order_count" readCounter
  let reconnectCount ← field members "reconnect_count" readCounter
  let sampleCount ← field members "sample_count" readCounter
  let timeoutCount ← field members "timeout_count" readCounter
  let warningCount ← field members "warning_count" readCounter
  return {
    configuration, endpoint, requestedDurationS, elapsedS, receiveRateHz, lastForceN, lastTorqueNm,
    lastRdtSequence, lastFtSequence, deviceStatus, deviceErrorCount, duplicateCount, lostCount,
    malformedCount, outOfOrderCount, reconnectCount, sampleCount, timeoutCount, warningCount }

/-- The report that a text spells. -/
def readReport (text : List UInt8) : Option Report :=
  match parse text with
  | some (.object members) => readMembers members
  | _ => none

/-- What the tool has to say. -/
def reportOf (result : Result) (sample : Option SiSample) : Report :=
  let health := result.health
  { configuration := health.sensorConfiguration.map fun configuration =>
      (configuration.source, configuration.calibration)
    endpoint := result.endpoint
    requestedDurationS := result.requestedDurationS
    elapsedS := result.elapsedS
    receiveRateHz := (Double.ofRat health.receivedCount).div result.elapsedS
    lastForceN := sample.map (·.force)
    lastTorqueNm := sample.map (·.torque)
    lastRdtSequence := health.lastRdtSequence
    lastFtSequence := health.lastFtSequence
    deviceStatus := health.lastStatus
    deviceErrorCount := health.deviceErrorCount
    duplicateCount := health.duplicateCount
    lostCount := health.lostCount
    malformedCount := health.malformedCount
    outOfOrderCount := health.outOfOrderCount
    reconnectCount := health.reconnectCount
    sampleCount := health.receivedCount
    timeoutCount := health.timeoutCount
    warningCount := health.warningCount }

/-! ## Values -/

/-- A value that a double variable can have. -/
def IsDouble (x : Double) : Prop := ∀ q, x = .finite q → Double.ofRat q = .finite q

/-- A quotient is a double. -/
theorem isDouble_div (x y : Double) : IsDouble (x.div y) := by
  intro q h
  have hzero : Double.ofRat 0 = .finite 0 := by decide +kernel
  unfold Double.div at h
  split at h
  · split_ifs at h
    exact Double.ofRat_of_ofRat h
  · cases h
  · cases h
    exact hzero
  · cases h

/-- So is a product. -/
theorem isDouble_mul (x y : Double) : IsDouble (x.mul y) := by
  intro q h
  unfold Double.mul at h
  split at h
  · exact Double.ofRat_of_ofRat h
  · split_ifs at h
  · split_ifs at h
  · cases h
  · cases h

/-- A double is read back from its 17 digits. -/
theorem readDouble_numberValue {x : Double} (hfinite : x.isFinite = true) (h : IsDouble x) :
    readDouble (numberValue x) = some x := by
  cases x with
  | finite q =>
    have hcharacters : characters (bytes (Library.Format.general maxDigits10 q)) =
        Library.Format.general 17 q :=
      characters_bytes fun c hc => (numberCharacter_byte (mem_general (by decide) hc)).1
    show (read (characters (bytes (Library.Format.general maxDigits10 q)))).map Double.ofRat = _
    rw [hcharacters]
    exact ofRat_read_general (h q rfl)
  | infinite _ => cases hfinite
  | nan => cases hfinite

/-- A counter is read back. -/
theorem readCounter_counterValue (n : ℕ) : readCounter (counterValue n) = some n := by
  have hcharacters : characters (Stream.digits 10 n) = Nat.toDigits 10 n :=
    characters_bytes fun c hc => (XmlConfig.isDigit_toNat (Library.Format.isDigit_toDigits hc)).2.2
  have hdigits : isDigits (Stream.digits 10 n) = true :=
    isDigits_bytes Nat.toDigits_ne_nil fun c => Library.Format.isDigit_toDigits
  simp only [readCounter, counterValue, hdigits, if_true, hcharacters, Nat.ofDigitChars_ten_toDigits]

/-- Digits in base 16 after zeros. -/
theorem hexNumber_digits (zeros n : ℕ) :
    hexNumber (List.replicate zeros 0x30 ++ Stream.digits 16 n) = some n := by
  have hdigit : ∀ k < 16, hexValue (Nat.digitChar k).toNat.toUInt8 = some k := by decide
  have hzeros : (List.replicate zeros (0x30 : UInt8)).foldlM
      (fun number digit => (hexValue digit).map (16 * number + ·)) 0 = some 0 := by
    induction zeros with
    | zero => rfl
    | succ zeros ih => exact ih
  rw [hexNumber, List.foldlM_append, hzeros]
  show (Stream.digits 16 n).foldlM _ 0 = some n
  induction n using Nat.strong_induction_on with
  | _ n ih =>
    by_cases hlt : n < 16
    · rw [Stream.digits, Nat.toDigits_of_lt_base hlt, List.map_singleton]
      simp [hdigit n hlt]
    · rw [Stream.digits, Nat.toDigits_of_base_le (by norm_num) (Nat.not_lt.mp hlt), List.map_append,
        List.foldlM_append]
      have hfront := ih (n / 16) (by omega)
      rw [Stream.digits] at hfront
      rw [hfront, List.map_singleton]
      simp [hdigit (n % 16) (Nat.mod_lt n (by norm_num)), Nat.div_add_mod]

/-- A status word is read back from its hexadecimal digits. -/
theorem readStatus_statusText (status : UInt32) : readStatus (.string (statusText status)) = some status := by
  have hfront : ascii "0x" = [0x30, 0x78] := by decide
  have hnumber := hexNumber_digits (8 - (Stream.digits 16 status.toNat).length) status.toNat
  rw [statusText, hfront]
  show (hexNumber ((Stream.digits 16 status.toNat).leftpad 8 0x30)).map UInt32.ofNat = some status
  rw [List.leftpad, hnumber, Option.map_some, UInt32.ofNat_toNat]

theorem readSequence_counterValue (sequence : UInt32) :
    readSequence (counterValue sequence.toNat) = some sequence := by
  rw [readSequence, readCounter_counterValue, Option.map_some, UInt32.ofNat_toNat]

/-- The names of the sources differ. -/
theorem readSource_string (source : CalibrationSource) :
    readSource (.string (ascii (configurationSource source))) = some source := by
  cases source <;> decide

/-- The spellings of the force units are accepted ones. -/
theorem readForceUnit_string (unit : ForceUnit) :
    readForceUnit (.string (ascii unit.toString)) = some unit :=
  forceUnitFromString_eq_some_iff.mpr rfl

/-- So are those of the torque units. -/
theorem readTorqueUnit_string (unit : TorqueUnit) :
    readTorqueUnit (.string (ascii unit.toString)) = some unit :=
  torqueUnitFromString_eq_some_iff.mpr rfl

/-- A count is read back if it is a double. -/
theorem readCount_numberValue {q : ℚ} (h : Double.ofRat q = .finite q) :
    readCount (numberValue (.finite q)) = some q := by
  have hdouble : IsDouble (.finite q) := by
    rintro _ ⟨⟩
    exact h
  rw [readCount, readDouble_numberValue rfl hdouble]

/-! ## Samples -/

/-- The values of a sample in SI units are doubles. -/
theorem checkedScale_ok {value x scale : Double} (h : checkedScale value scale = .ok x) :
    x.isFinite = true ∧ IsDouble x := by
  simp only [checkedScale] at h
  split_ifs at h with _ hfinite
  cases h
  exact ⟨hfinite, isDouble_mul value scale⟩

/-- A triple of finite doubles. -/
def Exact (values : Triple Double) : Prop :=
  (values.x.isFinite = true ∧ IsDouble values.x) ∧ (values.y.isFinite = true ∧ IsDouble values.y) ∧
    (values.z.isFinite = true ∧ IsDouble values.z)

/-- The values in newtons and newton metres are finite doubles. -/
theorem toSiSample_exact {sample : Sample} {si : SiSample} (h : toSiSample sample = .ok si) :
    Exact si.force ∧ Exact si.torque := by
  simp only [toSiSample, scaleTriples, bind_eq_ok_iff] at h
  obtain ⟨_, -, _, -, _, ⟨_, hfx, _, htx, _, hfy, _, hty, _, hfz, _, htz, hpair⟩, h⟩ := h
  cases hpair
  cases h
  exact ⟨⟨checkedScale_ok hfx, checkedScale_ok hfy, checkedScale_ok hfz⟩,
    ⟨checkedScale_ok htx, checkedScale_ok hty, checkedScale_ok htz⟩⟩

/-- Three doubles are read back. -/
theorem readTriple_array {values : Triple Double} (h : Exact values) :
    readTriple (.array [numberValue values.x, numberValue values.y, numberValue values.z]) = some values := by
  obtain ⟨hx, hy, hz⟩ := h
  simp only [readTriple, readDouble_numberValue hx.1 hx.2, readDouble_numberValue hy.1 hy.2,
    readDouble_numberValue hz.1 hz.2]
  rfl

/-- A wrench is read back, and `null` where there is none. -/
theorem readTriple_wrench {sample : Option Sample} {si : Option SiSample}
    (h : sample.mapM toSiSample = .ok si) (force : Bool) :
    readOptional readTriple (wrenchValue si force) =
      some (si.map fun si => if force then si.force else si.torque) := by
  cases si with
  | none => rfl
  | some si =>
    obtain ⟨sample, -, hsample⟩ : ∃ sample', sample = some sample' ∧ toSiSample sample' = .ok si := by
      cases sample with
      | none => cases h
      | some sample =>
        obtain ⟨si', hsi, heq⟩ := bind_eq_ok_iff.mp h
        cases heq
        exact ⟨sample, rfl, hsi⟩
    have hvalues : Exact (if force then si.force else si.torque) := by
      obtain ⟨hforce, htorque⟩ := toSiSample_exact hsample
      cases force
      · exact htorque
      · exact hforce
    exact congrArg (Option.map some) (readTriple_array hvalues)

/-! ## The report -/

/-- What the variables of the tool can hold. -/
structure Result.Held (result : Result) : Prop where
  requested : IsDouble result.requestedDurationS
  elapsed : IsDouble result.elapsedS
  counts : ∀ configuration ∈ result.health.sensorConfiguration,
    Double.ofRat configuration.calibration.countsPerForceUnit =
      .finite configuration.calibration.countsPerForceUnit ∧
    Double.ofRat configuration.calibration.countsPerTorqueUnit =
      .finite configuration.calibration.countsPerTorqueUnit

/-- Only finite numbers are written. -/
theorem isFinite_of_jsonNumber {x : Double} {text : List UInt8} (h : jsonNumber x = .ok text) :
    x.isFinite = true := by
  cases x with
  | finite q => rfl
  | infinite _ => cases h
  | nan => cases h

/-- What is not finite is not written. -/
theorem finite_of_serialize {result : Result} {text : List UInt8} (h : serialize result = .ok text) :
    result.elapsedS.isFinite = true ∧ result.requestedDurationS.isFinite = true ∧
      ((Double.ofRat result.health.receivedCount).div result.elapsedS).isFinite = true := by
  simp only [serialize, bind_eq_ok_iff] at h
  obtain ⟨_, -, _, -, _, -, _, helapsed, _, -, _, -, _, hrate, _, hrequested, -⟩ := h
  exact ⟨isFinite_of_jsonNumber helapsed, isFinite_of_jsonNumber hrequested, isFinite_of_jsonNumber hrate⟩

/-- What the reader makes of the calibration. -/
theorem readConfiguration {result : Result} (hresult : result.Held) :
    let configuration := result.health.sensorConfiguration
    readOptional readSource ((configuration.map (configurationSource ·.source)).elim .null
        (.string <| ascii ·)) = some (configuration.map (·.source)) ∧
      readOptional readForceUnit ((configuration.map (·.calibration.forceUnit.toString)).elim .null
        (.string <| ascii ·)) = some (configuration.map (·.calibration.forceUnit)) ∧
      readOptional readTorqueUnit ((configuration.map (·.calibration.torqueUnit.toString)).elim .null
        (.string <| ascii ·)) = some (configuration.map (·.calibration.torqueUnit)) ∧
      readOptional readCount ((configuration.map (·.calibration.countsPerForceUnit)).elim .null
        (numberValue <| .finite ·)) = some (configuration.map (·.calibration.countsPerForceUnit)) ∧
      readOptional readCount ((configuration.map (·.calibration.countsPerTorqueUnit)).elim .null
        (numberValue <| .finite ·)) = some (configuration.map (·.calibration.countsPerTorqueUnit)) := by
  rcases hconfiguration : result.health.sensorConfiguration with _ | configuration
  · exact ⟨rfl, rfl, rfl, rfl, rfl⟩
  · obtain ⟨hforce, htorque⟩ := hresult.counts configuration hconfiguration
    exact ⟨congrArg (Option.map some) (readSource_string _),
      congrArg (Option.map some) (readForceUnit_string _),
      congrArg (Option.map some) (readTorqueUnit_string _),
      congrArg (Option.map some) (readCount_numberValue hforce),
      congrArg (Option.map some) (readCount_numberValue htorque)⟩

theorem readOptional_sequence (sequence : Option UInt32) :
    readOptional readSequence (sequence.elim .null (counterValue ·.toNat)) = some sequence := by
  cases sequence with
  | none => rfl
  | some sequence => exact congrArg (Option.map some) (readSequence_counterValue sequence)

section

variable {members : List (List UInt8 × Value)} {name : String}

theorem field_number {x : Double} (h : members.lookup (ascii name) = some (numberValue x))
    (hfinite : x.isFinite = true) (hx : IsDouble x) : field members name readDouble = some x := by
  rw [field, h, Option.bind_some, readDouble_numberValue hfinite hx]

theorem field_counter {n : ℕ} (h : members.lookup (ascii name) = some (counterValue n)) :
    field members name readCounter = some n := by
  rw [field, h, Option.bind_some, readCounter_counterValue]

theorem field_sequence {sequence : Option UInt32}
    (h : members.lookup (ascii name) = some (sequence.elim .null (counterValue ·.toNat))) :
    field members name (readOptional readSequence) = some sequence := by
  rw [field, h, Option.bind_some, readOptional_sequence]

/-- The member of a wrench. -/
theorem field_wrench {sample : Option Sample} {si : Option SiSample} (hsample : sample.mapM toSiSample = .ok si)
    (force : Bool) (h : members.lookup (ascii name) = some (wrenchValue si force)) :
    field members name (readOptional readTriple) =
      some (si.map fun si => if force then si.force else si.torque) := by
  rw [field, h, Option.bind_some, readTriple_wrench hsample]

end

/-- **The report says what the tool has to say.** -/
theorem readReport_serialize {result : Result} {text : List UInt8} (hresult : result.Held)
    (h : serialize result = .ok text) :
    ∃ sample, result.last.mapM toSiSample = .ok sample ∧
      readReport text = some (reportOf result sample) := by
  obtain ⟨sample, hsample, hparse⟩ := parse_serialize h
  obtain ⟨helapsed, hrequested, hrate⟩ := finite_of_serialize h
  obtain ⟨hsource, hforceUnit, htorqueUnit, hforceCounts, htorqueCounts⟩ := readConfiguration hresult
  refine ⟨sample, hsample, ?_⟩
  have hcalibration : readCalibration (resultMembers result sample) =
      some (result.health.sensorConfiguration.map fun configuration =>
        (configuration.source, configuration.calibration)) := by
    have hsource' : field (resultMembers result sample) "configuration_source" (readOptional readSource) = _ :=
      hsource
    have hforceUnit' : field (resultMembers result sample) "force_unit" (readOptional readForceUnit) = _ :=
      hforceUnit
    have htorqueUnit' : field (resultMembers result sample) "torque_unit" (readOptional readTorqueUnit) = _ :=
      htorqueUnit
    have hforceCounts' : field (resultMembers result sample) "counts_per_force_unit"
        (readOptional readCount) = _ := hforceCounts
    have htorqueCounts' : field (resultMembers result sample) "counts_per_torque_unit"
        (readOptional readCount) = _ := htorqueCounts
    rw [readCalibration, hsource', hforceUnit', htorqueUnit', hforceCounts', htorqueCounts']
    cases result.health.sensorConfiguration <;> rfl
  have hstatus : field (resultMembers result sample) "device_status" readStatus =
      some result.health.lastStatus := readStatus_statusText _
  have hendpoint : field (resultMembers result sample) "endpoint" readString = some result.endpoint := rfl
  rw [readReport, hparse]
  show readMembers (resultMembers result sample) = _
  rw [readMembers, hcalibration, hendpoint, field_number rfl hrequested hresult.requested,
    field_number rfl helapsed hresult.elapsed, field_number rfl hrate (isDouble_div _ _),
    field_wrench hsample true rfl, field_wrench hsample false rfl,
    field_sequence rfl, field_sequence rfl, hstatus, field_counter rfl, field_counter rfl, field_counter rfl,
    field_counter rfl, field_counter rfl, field_counter rfl, field_counter rfl, field_counter rfl,
    field_counter rfl]
  rfl

/-- A run of five seconds with a tenth of a count for a newton. -/
def tenthResult : Result :=
  { endpoint := ascii "192.168.1.1:49152"
    requestedDurationS := .finite 5
    elapsedS := .finite 5
    health :=
      { receivedCount := 3, lastStatus := 0x80000000, lastFtSequence := some 7
        sensorConfiguration := some XmlConfig.tenthConfiguration }
    last := some
      { rdtSequence := 1, ftSequence := 7, status := 0, rawWrench := (⟨1, 2, 3⟩, ⟨4, 5, 6⟩)
        force := ⟨.finite 10, .finite 20, .finite 30⟩, torque := ⟨.finite 4, .finite 5, .finite 6⟩
        forceUnit := .KiloNewton, torqueUnit := .NewtonMeter } }

theorem readReport_serialize_tenth : ∃ text sample, serialize tenthResult = .ok text ∧
    tenthResult.last.mapM toSiSample = .ok sample ∧ readReport text = some (reportOf tenthResult sample) := by
  have hheld : tenthResult.Held := by
    refine ⟨?_, ?_, ?_⟩
    · rintro _ ⟨⟩
      decide +kernel
    · rintro _ ⟨⟩
      decide +kernel
    · rintro _ ⟨⟩
      exact ⟨by decide +kernel, by decide +kernel⟩
  have hok : (serialize tenthResult).isOk = true := by decide +kernel
  cases htext : serialize tenthResult with
  | error what =>
    rw [htext] at hok
    cases hok
  | ok text =>
    obtain ⟨sample, hsample, hread⟩ := readReport_serialize hheld htext
    exact ⟨text, sample, rfl, hsample, hread⟩

end NetFT.CheckMain
