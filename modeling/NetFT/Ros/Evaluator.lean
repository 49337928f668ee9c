/-
# NetFT.Ros.Evaluator — the diagnostic evaluator (`ros/diagnostics.cpp`).

`evaluate` turns a health snapshot into a report: a level, a message, the values and a key for the log.
It tests fifteen conditions in a fixed order and reports the first one that holds; eight of them ask
whether a counter has grown since the counters that the evaluator remembers.

* `Condition` names the tests, with their severity and their key; `evaluate_reports`: the report is that
  of a condition that holds, and no other one is more severe.
* `afterSnapshots_eq`: the evaluator remembers the counters of the latest snapshot without a fault.
* **`evaluate_level`**: after every sequence of snapshots the level is the largest severity of all
  conditions that hold.
-/
import NetFT.Library.Format
import NetFT.Library.Mealy
import NetFT.Status
import NetFT.Time

namespace NetFT.Ros

set_option autoImplicit false

open Library

/-! ## Snapshots and reports -/

/-- A snapshot as the evaluator gets it; the rates are doubles, and those of a client are the whole
numbers of `health`. -/
structure Snapshot where
  health : HealthSnapshot
  receiveRateHz : Double := .finite health.receiveRateHz
  deliveryRateHz : Double := .finite health.deliveryRateHz
  deriving DecidableEq, Repr

/-- A report: level, message, values, and the key under which it is logged. -/
structure DiagnosticReport where
  level : Int
  message : String
  values : List (String × String)
  logKey : String
  deriving DecidableEq, Repr

/-- Malformed datagrams that count as a storm. -/
def kMalformedStormThreshold : Nat := 10

/-- The counters that the evaluator remembers from call to call. -/
@[ext] structure Counters where
  lost : Nat := 0
  deviceError : Nat := 0
  timeout : Nat := 0
  malformed : Nat := 0
  ftStall : Nat := 0
  ftBackward : Nat := 0
  ftRestart : Nat := 0
  callbackError : Nat := 0
  deriving DecidableEq, Repr

/-- The arguments of a `DiagnosticEvaluator` that its constructor accepts. -/
structure RateSettings where
  expectedRdtRate : ℚ
  rateTolerance : ℚ
  expected_pos : 0 < expectedRdtRate
  tolerance_nonneg : 0 ≤ rateTolerance
  tolerance_le_one : rateTolerance ≤ 1

/-- The evaluator, with the counters that it remembers. -/
structure DiagnosticEvaluator extends RateSettings where
  previous : Counters := {}

/-- The constructor; its errors are `std::invalid_argument`. -/
def makeEvaluator (expectedRdtRate rateTolerance : Double) : Except String DiagnosticEvaluator :=
  match expectedRdtRate with
  | .finite expected =>
    if hexpected : 0 < expected then
      match rateTolerance with
      | .finite tolerance =>
        if htolerance : 0 ≤ tolerance ∧ tolerance ≤ 1 then
          .ok { expectedRdtRate := expected, rateTolerance := tolerance, expected_pos := hexpected,
                tolerance_nonneg := htolerance.1, tolerance_le_one := htolerance.2 }
        else .error "rate_tolerance must be between 0 and 1"
      | _ => .error "rate_tolerance must be between 0 and 1"
    else .error "expected_rdt_rate must be finite and greater than zero"
  | _ => .error "expected_rdt_rate must be finite and greater than zero"

/-! ## Values -/

/-- A number with this many decimals, as a stream prints it. -/
def numberText (value : Double) (precision : Nat) : String :=
  match value with
  | .finite q => String.ofList (Format.fixed precision q)
  | .infinite negative => if negative then "-inf" else "inf"
  | .nan => "nan"

def calibrationNumber (value : ℚ) : String := String.ofList (Format.general 17 value)

def sequenceText (value : Option UInt32) : String :=
  match value with
  | some sequence => toString sequence.toNat
  | none => "none"

def statusCode (status : UInt32) : String :=
  "0x" ++ String.ofList (Format.padLeft 8 '0' (Nat.toDigits 16 status.toNat))

def configurationSource : CalibrationSource → String
  | .Sensor => "sensor"
  | .Override => "override"

def configurationValues (health : HealthSnapshot) : List (String × String) :=
  match health.sensorConfiguration with
  | none => []
  | some configuration => [
      ("configuration_source", configurationSource configuration.source),
      ("force_unit", configuration.calibration.forceUnit.toString),
      ("torque_unit", configuration.calibration.torqueUnit.toString),
      ("configuration_revision", toString configuration.revision),
      ("calibration_change_count", toString health.calibrationChangeCount),
      ("counts_per_force_unit", calibrationNumber configuration.calibration.countsPerForceUnit),
      ("counts_per_torque_unit", calibrationNumber configuration.calibration.countsPerTorqueUnit)]

def reportValues (rates : RateSettings) (snapshot : Snapshot) : List (String × String) :=
  let health := snapshot.health
  [ ("state", health.state.toString),
    ("sensor", health.sensorHost ++ ":" ++ toString health.rdtPort),
    ("last_rdt_sequence", sequenceText health.lastRdtSequence),
    ("last_ft_sequence", sequenceText health.lastFtSequence),
    ("last_ft_progress", health.lastFtProgress),
    ("device_status", statusCode health.lastStatus),
    ("active_status", decodeStatus health.lastStatus),
    ("receive_rate_hz", numberText snapshot.receiveRateHz 1),
    ("expected_receive_rate_hz", numberText (.finite rates.expectedRdtRate) 1),
    ("rate_tolerance", numberText (.finite rates.rateTolerance) 3),
    ("delivery_rate_hz", numberText snapshot.deliveryRateHz 1),
    ("received_count", toString health.receivedCount),
    ("delivered_count", toString health.deliveredCount),
    ("rate_limited_count", toString health.rateLimitedCount),
    ("device_error_count", toString health.deviceErrorCount),
    ("lost_count", toString health.lostCount),
    ("duplicate_count", toString health.duplicateCount),
    ("out_of_order_count", toString health.outOfOrderCount),
    ("ft_stall_count", toString health.ftStallCount),
    ("ft_backward_count", toString health.ftBackwardCount),
    ("ft_restart_count", toString health.ftRestartCount),
    ("malformed_count", toString health.malformedCount),
    ("malformed_storm_threshold", toString kMalformedStormThreshold),
    ("malformed_storm_window", "between_diagnostic_updates"),
    ("reconnect_count", toString health.reconnectCount),
    ("timeout_count", toString health.timeoutCount),
    ("callback_error_count", toString health.callbackErrorCount),
    ("last_record_age_s",
      match health.lastRecordAge with
      | some age => numberText (.finite age.toSeconds) 3
      | none => "none"),
    ("last_error", health.lastError) ] ++ configurationValues health

/-! ## Evaluation -/

/-- `delta` on each counter: how far it has grown, zero where it has not. -/
def Counters.delta (current previous : Counters) : Counters where
  lost := current.lost - previous.lost
  deviceError := current.deviceError - previous.deviceError
  timeout := current.timeout - previous.timeout
  malformed := current.malformed - previous.malformed
  ftStall := current.ftStall - previous.ftStall
  ftBackward := current.ftBackward - previous.ftBackward
  ftRestart := current.ftRestart - previous.ftRestart
  callbackError := current.callbackError - previous.callbackError

namespace Snapshot

/-- The counters that `evaluate` reads. -/
def counters (snapshot : Snapshot) : Counters where
  lost := snapshot.health.lostCount
  deviceError := snapshot.health.deviceErrorCount
  timeout := snapshot.health.timeoutCount
  malformed := snapshot.health.malformedCount
  ftStall := snapshot.health.ftStallCount
  ftBackward := snapshot.health.ftBackwardCount
  ftRestart := snapshot.health.ftRestartCount
  callbackError := snapshot.health.callbackErrorCount

/-- A snapshot with a fault. -/
def faulted (snapshot : Snapshot) : Bool :=
  snapshot.health.state = .Faulted || snapshot.health.faultCode ≠ .None

end Snapshot

namespace RateSettings

/-- The least rate within the tolerance. -/
def lowerRate (rates : RateSettings) : Double :=
  (Double.finite rates.expectedRdtRate).mul ((Double.finite 1).sub (.finite rates.rateTolerance))

/-- The greatest one. -/
def upperRate (rates : RateSettings) : Double :=
  (Double.finite rates.expectedRdtRate).mul ((Double.finite 1).add (.finite rates.rateTolerance))

end RateSettings

/-- The tests after the counters have been brought up to date, with what they have grown by. -/
def judge (rates : RateSettings) (snapshot : Snapshot) (grown : Counters)
    (report : Int → String → String → DiagnosticReport) : DiagnosticReport :=
  let health := snapshot.health
  let statusSeverity := classifyStatus health.lastStatus
  if health.state = .Backoff then report 2 "connection lost; reconnecting" "backoff"
  else if health.state = .Stopped then report 2 "client stopped" "stopped"
  else if statusSeverity = .Error then
    report 2 ("device error: " ++ decodeStatus health.lastStatus) "device_error"
  else if grown.deviceError ≠ 0 then
    report 2 "serious device status observed since last diagnostic" "device_error_event"
  else if grown.timeout ≠ 0 then
    report 2 "receive timeout observed since last diagnostic" "receive_timeout"
  else if kMalformedStormThreshold ≤ grown.malformed then
    report 2 "malformed-packet storm observed since last diagnostic" "malformed_storm"
  else if grown.ftStall ≠ 0 then report 2 "FT sequence stalled since last diagnostic" "ft_stall"
  else if grown.ftBackward ≠ 0 then
    report 2 "FT sequence moved backward since last diagnostic" "ft_backward"
  else if health.state = .Connecting then report 1 "waiting for first RDT record" "connecting"
  else if statusSeverity = .Warn then report 1 "monitor condition latched" "condition_latch"
  else if grown.ftRestart ≠ 0 then
    report 1 "FT device counter restarted since last diagnostic" "ft_restart"
  else if grown.lost ≠ 0 then report 1 "RDT records lost since last diagnostic" "packet_loss"
  else if snapshot.receiveRateHz.lt rates.lowerRate ∨ rates.upperRate.lt snapshot.receiveRateHz then
    report 1 "receive rate outside configured tolerance" "receive_rate"
  else if grown.callbackError ≠ 0 then
    report 1 "sample callback failed since last diagnostic" "callback_error"
  else report 0 "streaming normally" "healthy"

namespace DiagnosticEvaluator

/-- `evaluate`: the report of a snapshot, and the evaluator after it. -/
def evaluate (evaluator : DiagnosticEvaluator) (snapshot : Snapshot) :
    DiagnosticReport × DiagnosticEvaluator :=
  let report (level : Int) (message logKey : String) : DiagnosticReport :=
    { level, message, values := reportValues evaluator.toRateSettings snapshot, logKey }
  if snapshot.faulted then
    let detail :=
      if snapshot.health.lastError.isEmpty then snapshot.health.faultCode.toString
      else snapshot.health.lastError
    (report 2 ("faulted: " ++ detail) "faulted", evaluator)
  else
    let grown := snapshot.counters.delta evaluator.previous
    (judge evaluator.toRateSettings snapshot grown report,
      { evaluator with previous := snapshot.counters })

end DiagnosticEvaluator

/-! ## The conditions -/

/-- What a report can name. -/
inductive Condition where
  | faulted | backoff | stopped | deviceError | deviceErrorEvent | receiveTimeout | malformedStorm
  | ftStall | ftBackward | connecting | conditionLatch | ftRestart | packetLoss | receiveRate
  | callbackError
  deriving DecidableEq, Repr

namespace Condition

/-- The level of a condition. -/
def severity : Condition → Int
  | .faulted | .backoff | .stopped | .deviceError | .deviceErrorEvent | .receiveTimeout
  | .malformedStorm | .ftStall | .ftBackward => 2
  | .connecting | .conditionLatch | .ftRestart | .packetLoss | .receiveRate | .callbackError => 1

def logKey : Condition → String
  | .faulted => "faulted"
  | .backoff => "backoff"
  | .stopped => "stopped"
  | .deviceError => "device_error"
  | .deviceErrorEvent => "device_error_event"
  | .receiveTimeout => "receive_timeout"
  | .malformedStorm => "malformed_storm"
  | .ftStall => "ft_stall"
  | .ftBackward => "ft_backward"
  | .connecting => "connecting"
  | .conditionLatch => "condition_latch"
  | .ftRestart => "ft_restart"
  | .packetLoss => "packet_loss"
  | .receiveRate => "receive_rate"
  | .callbackError => "callback_error"

/-- How much a counter must grow for the condition, and which one it is. -/
def counter : Condition → Option (Nat × (Counters → Nat))
  | .deviceErrorEvent => some (1, Counters.deviceError)
  | .receiveTimeout => some (1, Counters.timeout)
  | .malformedStorm => some (10, Counters.malformed)
  | .ftStall => some (1, Counters.ftStall)
  | .ftBackward => some (1, Counters.ftBackward)
  | .ftRestart => some (1, Counters.ftRestart)
  | .packetLoss => some (1, Counters.lost)
  | .callbackError => some (1, Counters.callbackError)
  | _ => none

/-- The condition holds of a snapshot, where the counters have been `base` before.  A snapshot with a
fault has no growth. -/
def Holds (rates : RateSettings) (base : Counters) (snapshot : Snapshot) (c : Condition) : Prop :=
  match c.counter with
  | some (least, counter) =>
    snapshot.faulted = false ∧ counter base + least ≤ counter snapshot.counters
  | none =>
    match c with
    | .faulted => snapshot.health.state = .Faulted ∨ snapshot.health.faultCode ≠ .None
    | .backoff => snapshot.health.state = .Backoff
    | .stopped => snapshot.health.state = .Stopped
    | .deviceError => classifyStatus snapshot.health.lastStatus = .Error
    | .connecting => snapshot.health.state = .Connecting
    | .conditionLatch => classifyStatus snapshot.health.lastStatus = .Warn
    | .receiveRate =>
      snapshot.receiveRateHz.lt rates.lowerRate = true ∨ rates.upperRate.lt snapshot.receiveRateHz = true
    | _ => False

theorem severity_le_two (c : Condition) : c.severity ≤ 2 := by
  cases c <;> decide

theorem severity_pos (c : Condition) : 0 < c.severity := by
  cases c <;> decide

/-- A condition is an error or a warning. -/
theorem severity_eq (c : Condition) : c.severity = 2 ∨ c.severity = 1 := by
  cases c <;> decide

end Condition

/-- The report is that of a condition that holds, and no condition that holds is more severe. -/
def DiagnosticReport.Reports (report : DiagnosticReport) (holds : Condition → Prop) : Prop :=
  (report.level = 0 ∧ report.logKey = "healthy" ∧ ∀ c, ¬ holds c) ∨
    ∃ c, holds c ∧ report.level = c.severity ∧ report.logKey = c.logKey ∧
      ∀ c', holds c' → c'.severity ≤ c.severity

section

variable {holds : Condition → Prop} {report : Int → String → String → DiagnosticReport}

/-- A report names its level and its key. -/
def Names (report : Int → String → String → DiagnosticReport) : Prop :=
  ∀ level message logKey,
    (report level message logKey).level = level ∧ (report level message logKey).logKey = logKey

theorem reports_ite {p : Prop} [Decidable p] {r r' : DiagnosticReport} (h : p → r.Reports holds)
    (h' : ¬ p → r'.Reports holds) : (if p then r else r').Reports holds := by
  split_ifs with hp
  · exact h hp
  · exact h' hp

theorem Names.severe (h : Names report) {c : Condition} (hc : holds c) (hsevere : c.severity = 2)
    (message : String) : (report 2 message c.logKey).Reports holds :=
  .inr ⟨c, hc, (h _ _ _).1.trans hsevere.symm, (h _ _ _).2, fun c' _ => hsevere ▸ c'.severity_le_two⟩

theorem Names.mild (h : Names report) {c : Condition} (hc : holds c) (hmild : c.severity = 1)
    (hnone : ∀ c', holds c' → c'.severity ≠ 2) (message : String) :
    (report 1 message c.logKey).Reports holds := by
  refine .inr ⟨c, hc, (h _ _ _).1.trans hmild.symm, (h _ _ _).2, fun c' hc' => ?_⟩
  have := c'.severity_eq
  have := hnone c' hc'
  omega

end

variable {rates : RateSettings} {base : Counters} {snapshot : Snapshot}

theorem counter_delta {c : Condition} {least : Nat} {counter : Counters → Nat}
    (hc : c.counter = some (least, counter)) (current previous : Counters) :
    counter (current.delta previous) = counter current - counter previous := by
  cases c <;> cases hc <;> rfl

/-- A condition on a counter, as the cascade tests it. -/
theorem holds_iff_ne_zero {c : Condition} {counter : Counters → Nat}
    (hc : c.counter = some (1, counter)) (hfault : snapshot.faulted = false) :
    c.Holds rates base snapshot ↔ counter (snapshot.counters.delta base) ≠ 0 := by
  unfold Condition.Holds
  rw [hc, counter_delta hc]
  simp only [and_iff_right hfault]
  omega

theorem holds_malformedStorm_iff (hfault : snapshot.faulted = false) :
    Condition.malformedStorm.Holds rates base snapshot ↔
      kMalformedStormThreshold ≤ (snapshot.counters.delta base).malformed := by
  change _ ∧ base.malformed + 10 ≤ _ ↔ 10 ≤ _ - base.malformed
  rw [and_iff_right hfault]
  omega

/-- Without a severe test of the cascade no severe condition holds. -/
theorem severity_ne_two (hfault : snapshot.faulted = false) (hbackoff : snapshot.health.state ≠ .Backoff)
    (hstopped : snapshot.health.state ≠ .Stopped)
    (herror : classifyStatus snapshot.health.lastStatus ≠ .Error)
    (hevents : ∀ c : Condition, c.counter.isSome → c.severity = 2 → ¬ c.Holds rates base snapshot)
    {c : Condition} (hc : c.Holds rates base snapshot) : c.severity ≠ 2 := by
  intro hsevere
  cases c with
  | faulted =>
    simp only [Snapshot.faulted, Bool.or_eq_false_iff, decide_eq_false_iff_not, not_not] at hfault
    exact hc.elim hfault.1 fun hcode => hcode hfault.2
  | backoff => exact hbackoff hc
  | stopped => exact hstopped hc
  | deviceError => exact herror hc
  | deviceErrorEvent | receiveTimeout | malformedStorm | ftStall | ftBackward =>
    exact hevents _ rfl rfl hc
  | connecting | conditionLatch | ftRestart | packetLoss | receiveRate | callbackError =>
    cases hsevere

/-- **The cascade reports the first condition that holds.** -/
theorem judge_reports {report : Int → String → String → DiagnosticReport} (hreport : Names report)
    (hfault : snapshot.faulted = false) :
    (judge rates snapshot (snapshot.counters.delta base) report).Reports
      (Condition.Holds rates base snapshot) := by
  have hgrown : ∀ {c : Condition} {counter : Counters → Nat}, c.counter = some (1, counter) →
      (c.Holds rates base snapshot ↔ counter (snapshot.counters.delta base) ≠ 0) :=
    fun hc => holds_iff_ne_zero hc hfault
  have hstorms : Condition.malformedStorm.Holds rates base snapshot ↔ _ := holds_malformedStorm_iff hfault
  refine reports_ite (fun h => hreport.severe (c := .backoff) h rfl _) fun hbackoff => ?_
  refine reports_ite (fun h => hreport.severe (c := .stopped) h rfl _) fun hstopped => ?_
  refine reports_ite (fun h => hreport.severe (c := .deviceError) h rfl _) fun herror => ?_
  refine reports_ite (fun h => hreport.severe (c := .deviceErrorEvent) ((hgrown rfl).mpr h) rfl _)
    fun hdevice => ?_
  refine reports_ite (fun h => hreport.severe (c := .receiveTimeout) ((hgrown rfl).mpr h) rfl _)
    fun htimeout => ?_
  refine reports_ite (fun h => hreport.severe (c := .malformedStorm) (hstorms.mpr h) rfl _)
    fun hstorm => ?_
  refine reports_ite (fun h => hreport.severe (c := .ftStall) ((hgrown rfl).mpr h) rfl _)
    fun hstall => ?_
  refine reports_ite (fun h => hreport.severe (c := .ftBackward) ((hgrown rfl).mpr h) rfl _)
    fun hback => ?_
  -- from here on no severe condition holds
  have hevents : ∀ c : Condition, c.counter.isSome → c.severity = 2 →
      ¬ c.Holds rates base snapshot := by
    intro c hcounter hsevere
    cases c with
    | deviceErrorEvent => exact fun hc => hdevice ((hgrown rfl).mp hc)
    | receiveTimeout => exact fun hc => htimeout ((hgrown rfl).mp hc)
    | malformedStorm => exact fun hc => hstorm (hstorms.mp hc)
    | ftStall => exact fun hc => hstall ((hgrown rfl).mp hc)
    | ftBackward => exact fun hc => hback ((hgrown rfl).mp hc)
    | faulted | backoff | stopped | deviceError | connecting | conditionLatch | receiveRate =>
      cases hcounter
    | ftRestart | packetLoss | callbackError => cases hsevere
  have hnone : ∀ c : Condition, c.Holds rates base snapshot → c.severity ≠ 2 :=
    fun c => severity_ne_two hfault hbackoff hstopped herror hevents
  refine reports_ite (fun h => hreport.mild (c := .connecting) h rfl hnone _) fun hconnecting => ?_
  refine reports_ite (fun h => hreport.mild (c := .conditionLatch) h rfl hnone _) fun hwarn => ?_
  refine reports_ite (fun h => hreport.mild (c := .ftRestart) ((hgrown rfl).mpr h) rfl hnone _)
    fun hrestart => ?_
  refine reports_ite (fun h => hreport.mild (c := .packetLoss) ((hgrown rfl).mpr h) rfl hnone _)
    fun hlost => ?_
  refine reports_ite (fun h => hreport.mild (c := .receiveRate) h rfl hnone _) fun hrate => ?_
  refine reports_ite (fun h => hreport.mild (c := .callbackError) ((hgrown rfl).mpr h) rfl hnone _)
    fun hcallback => ?_
  refine .inl ⟨(hreport _ _ _).1, (hreport _ _ _).2, fun c hc => ?_⟩
  cases c with
  | faulted | backoff | stopped | deviceError | deviceErrorEvent | receiveTimeout | malformedStorm
  | ftStall | ftBackward => exact hnone _ hc rfl
  | connecting => exact hconnecting hc
  | conditionLatch => exact hwarn hc
  | receiveRate => exact hrate hc
  | ftRestart => exact hrestart ((hgrown rfl).mp hc)
  | packetLoss => exact hlost ((hgrown rfl).mp hc)
  | callbackError => exact hcallback ((hgrown rfl).mp hc)

/-- The report of an evaluator that remembers `base`. -/
theorem evaluate_reports (rates : RateSettings) (base : Counters) (snapshot : Snapshot) :
    (DiagnosticEvaluator.evaluate ⟨rates, base⟩ snapshot).1.Reports
      (Condition.Holds rates base snapshot) := by
  have hnames : Names fun level message logKey =>
      { level, message, values := reportValues rates snapshot, logKey } := fun _ _ _ => ⟨rfl, rfl⟩
  unfold DiagnosticEvaluator.evaluate
  cases hfault : snapshot.faulted with
  | true =>
    simp only [Snapshot.faulted, Bool.or_eq_true, decide_eq_true_eq] at hfault
    exact hnames.severe (c := .faulted) hfault rfl _
  | false => exact judge_reports hnames hfault

/-! ## Sequences of snapshots -/

/-- The counters of the latest snapshot without a fault, zero if there is none. -/
def remembered (history : List Snapshot) : Counters :=
  match history.reverse.find? (!·.faulted) with
  | none => {}
  | some snapshot => snapshot.counters

/-- A snapshot with a fault is not remembered. -/
theorem remembered_concat (history : List Snapshot) (snapshot : Snapshot) :
    remembered (history ++ [snapshot]) =
      if snapshot.faulted then remembered history else snapshot.counters := by
  unfold remembered
  rw [List.reverse_append, List.reverse_singleton, List.singleton_append, List.find?_cons]
  cases snapshot.faulted <;> rfl

/-- An evaluator that has been given the snapshots. -/
def afterSnapshots (rates : RateSettings) (history : List Snapshot) : DiagnosticEvaluator :=
  Mealy.after DiagnosticEvaluator.evaluate ⟨rates, {}⟩ history

/-- Its report of the next one. -/
def nextReport (rates : RateSettings) (history : List Snapshot) (snapshot : Snapshot) :
    DiagnosticReport :=
  ((afterSnapshots rates history).evaluate snapshot).1

/-- **What the evaluator remembers.** -/
theorem afterSnapshots_eq (rates : RateSettings) (history : List Snapshot) :
    afterSnapshots rates history = ⟨rates, remembered history⟩ := by
  refine Mealy.invariant
    (I := fun history (evaluator : DiagnosticEvaluator) => evaluator = ⟨rates, remembered history⟩)
    rfl ?_ history
  intro history snapshot h
  rw [h, remembered_concat]
  unfold DiagnosticEvaluator.evaluate
  cases snapshot.faulted <;> rfl

/-- **A report names a condition that holds**, or none does. -/
theorem nextReport_reports (rates : RateSettings) (history : List Snapshot) (snapshot : Snapshot) :
    (nextReport rates history snapshot).Reports
      (Condition.Holds rates (remembered history) snapshot) := by
  rw [nextReport, afterSnapshots_eq]
  exact evaluate_reports rates (remembered history) snapshot

/-- The level is the largest severity of the conditions that hold. -/
structure LevelOf (holds : Condition → Prop) (level : Int) : Prop where
  upper : ∀ c, holds c → c.severity ≤ level
  attained : level = 0 ∨ ∃ c, holds c ∧ c.severity = level
  error : level = 2 ↔ ∃ c, holds c ∧ c.severity = 2
  warning : level = 1 ↔ (∃ c, holds c ∧ c.severity = 1) ∧ ∀ c, holds c → c.severity ≠ 2
  normal : level = 0 ↔ ∀ c, ¬ holds c

/-- **Diagnostics never mask a more severe condition.** -/
theorem evaluate_level (rates : RateSettings) (history : List Snapshot) (snapshot : Snapshot) :
    LevelOf (Condition.Holds rates (remembered history) snapshot)
      (nextReport rates history snapshot).level := by
  rcases nextReport_reports rates history snapshot with ⟨hlevel, -, hnone⟩ | ⟨c, hc, hlevel, -, hmax⟩
  · rw [hlevel]
    refine ⟨fun c hc => absurd hc (hnone c), .inl rfl, ?_, ?_, fun _ => hnone, fun _ => rfl⟩
    · exact ⟨fun h => (by cases h), fun ⟨c, hc, _⟩ => absurd hc (hnone c)⟩
    · exact ⟨fun h => (by cases h), fun ⟨⟨c, hc, _⟩, _⟩ => absurd hc (hnone c)⟩
  · rw [hlevel]
    refine ⟨hmax, .inr ⟨c, hc, rfl⟩, ?_, ?_, ?_⟩
    · refine ⟨fun h => ⟨c, hc, h⟩, fun ⟨c', hc', h⟩ => ?_⟩
      have := hmax c' hc'
      have := c.severity_le_two
      omega
    · refine ⟨fun h => ⟨⟨c, hc, h⟩, fun c' hc' => ?_⟩, fun ⟨_, hnone⟩ => ?_⟩
      · have := hmax c' hc'
        omega
      · exact c.severity_eq.resolve_left (hnone c hc)
    · have hpos := c.severity_pos
      exact ⟨fun h => absurd h (by omega), fun hnone => absurd hc (hnone c)⟩

end NetFT.Ros
