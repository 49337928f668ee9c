/-
# NetFT.Client.HandleRecord — one well-formed record (`Client::Impl::handle_record`).

The source runs in three phases, and so does the model:

1. `observeRecord`, under the record and data locks: both trackers classify the record, the counters
   are updated, and a delivery flag and an outcome are computed (`verdict`, then the rate limit);
2. outside the locks the sample is scaled and the callback is invoked;
3. `deliverSample` after a callback that returned, `recordCallbackError` after one that threw.

`prepareRecord` is phase 1 up to the invocation, `finishRecord` what follows it, and `handleRecord`
their composition for a given `CallbackResult`.  `verdict_deliver`, `verdict_failStop` and
`verdict_reconnect` say what the branches of phase 1 amount to.
-/
import NetFT.Client.Impl

namespace NetFT.Client

open Library (Double)

/-! ## Counters -/

def ftProgressName : FtSequenceKind → String
  | .First => "first"
  | .Forward => "forward"
  | .Stall => "stall"
  | .Backward => "backward"
  | .Restart => "restart"

def countRdt (health : HealthSnapshot) (rdt : SequenceObservation) : HealthSnapshot :=
  match rdt.kind with
  | .Gap => { health with lostCount := health.lostCount + rdt.gap.toNat }
  | .Duplicate => { health with duplicateCount := health.duplicateCount + 1 }
  | .OutOfOrder => { health with outOfOrderCount := health.outOfOrderCount + 1 }
  | .First | .Contiguous => health

def countFt (health : HealthSnapshot) (ft : FtSequenceKind) : HealthSnapshot :=
  let health := { health with lastFtProgress := ftProgressName ft }
  match ft with
  | .Stall => { health with ftStallCount := health.ftStallCount + 1 }
  | .Backward => { health with ftBackwardCount := health.ftBackwardCount + 1 }
  | .Restart => { health with ftRestartCount := health.ftRestartCount + 1 }
  | .First | .Forward => health

def countSeverity (health : HealthSnapshot) (severity : StatusSeverity) : HealthSnapshot :=
  match severity with
  | .Warn => { health with warningCount := health.warningCount + 1 }
  | .Error => { health with deviceErrorCount := health.deviceErrorCount + 1 }
  | .Ok => health

/-! ## The verdict on a record -/

/-- The delivery flag and the outcome, from the two sequence verdicts and the severity. -/
def verdict (config : Config) (rdt : SequenceKind) (ft : FtSequenceKind)
    (severity : StatusSeverity) : Bool × Option SessionResult :=
  let deliver := !rdt.dropped
  let (deliver, outcome) : Bool × Option SessionResult :=
    if severity = .Error then
      (config.deliverSamplesWithErrorStatus && deliver, some .SeriousStatus)
    else (deliver, none)
  let outcome :=
    if outcome = none ∧ ft = .Stall then some .FtStall
    else if outcome = none ∧ ft = .Backward then some .FtBackward
    else outcome
  if ft.discontinuity then
    (false,
      if config.recoveryPolicy = .Reconnect ∧
          (outcome = some .FtStall ∨ outcome = some .FtBackward) then none
      else outcome)
  else (deliver, outcome)

/-- `duration<double>{1.0 / rate}` in ticks, a `duration<double, nano>`. -/
def samplePeriod (rate : ℚ) : Double :=
  ((Double.finite 1).div (.finite rate)).mul (.finite ticksPerSecond)

/-- `elapsed < duration<double>{1.0 / rate}`: both sides are converted to ticks in a double. -/
def withinPeriod (elapsed : Ticks) (rate : ℚ) : Bool := (Double.ofRat elapsed).lt (samplePeriod rate)

/-- `sample_rate_limit_hz`: less than a period has passed since the last delivery. -/
def rateLimited (config : Config) (lastDeliveryAt receivedAt : TimePoint) : Bool :=
  decide (0 < config.sampleRateLimitHz) && decide (lastDeliveryAt ≠ 0) &&
    withinPeriod (receivedAt - lastDeliveryAt) config.sampleRateLimitHz

/-! ## Phase 1: observation -/

/-- What phase 1 hands to the rest of `handle_record`. -/
structure Observation where
  configuration : SensorConfiguration
  deliver : Bool
  outcome : Option SessionResult

namespace Impl

/-- The health snapshot after the record and data sections, before the rate limit. -/
def observedHealth (c : Impl) (record : RawRecord) (receiveTimes : List TimePoint)
    (rdt : SequenceObservation) (ft : FtSequenceKind) (severity : StatusSeverity) :
    HealthSnapshot :=
  let health :=
    { c.health with
      state := .Streaming
      receivedCount := c.health.receivedCount + 1
      receiveRateHz := receiveTimes.length
      lastRdtSequence := some record.rdtSequence
      lastFtSequence := some record.ftSequence
      lastStatus := record.status }
  countSeverity (countFt (countRdt health rdt) ft) severity

/-- The locked part of `handle_record`.  Without a sensor configuration it throws
`std::logic_error`; both trackers have already moved by then. -/
def observeRecord (c : Impl) (record : RawRecord) (receivedAt : TimePoint) :
    Impl × Except String Observation :=
  let (rdt, rdtSequence) := c.rdtSequence.observe record.rdtSequence
  let (ft, ftSequence) := c.ftSequence.observe record.ftSequence
  let severity := classifyStatus record.status
  let c := { c with rdtSequence, ftSequence }
  match c.health.sensorConfiguration with
  | none => (c, .error "sensor configuration is unavailable while streaming")
  | some configuration =>
    let receiveTimes := pruneRateWindow (c.receiveTimes ++ [receivedAt]) receivedAt
    let health := c.observedHealth record receiveTimes rdt ft severity
    let (deliver, outcome) := verdict c.config rdt.kind ft severity
    let limited := deliver && rateLimited c.config c.lastDeliveryAt receivedAt
    let health :=
      if limited then { health with rateLimitedCount := health.rateLimitedCount + 1 } else health
    ({ c with health, receiveTimes, lastRecordAt := receivedAt },
      .ok { configuration, deliver := deliver && !limited, outcome })

end Impl

/-! ## Phase 2: scaling and the callback -/

/-- The sample built from a record and the configuration copied with it. -/
def sampleOf (record : RawRecord) (configuration : SensorConfiguration)
    (receivedAt : TimePoint) : Sample :=
  let calibration := configuration.calibration
  let force : Triple Int := ⟨record.fx, record.fy, record.fz⟩
  let torque : Triple Int := ⟨record.tx, record.ty, record.tz⟩
  { rdtSequence := record.rdtSequence
    ftSequence := record.ftSequence
    status := record.status
    rawWrench := (force, torque)
    force := force.map fun raw : Int => Double.ofRat ((raw : ℚ) / calibration.countsPerForceUnit)
    torque := torque.map fun raw : Int => Double.ofRat ((raw : ℚ) / calibration.countsPerTorqueUnit)
    forceUnit := calibration.forceUnit
    torqueUnit := calibration.torqueUnit
    configurationRevision := configuration.revision
    receivedAt }

def Sample.isFinite (sample : Sample) : Bool :=
  sample.force.all Double.isFinite && sample.torque.all Double.isFinite

/-- How an invocation of the sample callback ends; `threw none` is an exception that is not a
`std::exception`. -/
inductive CallbackResult where
  | returned
  | threw (what : Option String)
  deriving DecidableEq, Repr

/-- `callback_failure_outcome`. -/
def callbackFailureOutcome (config : Config) (outcome : Option SessionResult) :
    Option SessionResult :=
  if outcome.isSome ∨ config.recoveryPolicy = .Reconnect then outcome else some .Callback

/-- Where `handle_record` stands when it reaches the callback. -/
inductive Prepared where
  | raised (what : String)
  | done (outcome : Option SessionResult)
  | invoke (sample : Sample) (outcome : Option SessionResult)
  deriving DecidableEq, Repr

namespace Impl

def prepareRecord (c : Impl) (record : RawRecord) (receivedAt : TimePoint) : Impl × Prepared :=
  match c.observeRecord record receivedAt with
  | (c, .error what) => (c, .raised what)
  | (c, .ok observation) =>
    if !observation.deliver then (c, .done observation.outcome)
    else
      let sample := sampleOf record observation.configuration receivedAt
      if !Sample.isFinite sample then (c, .done (some .SensorConfiguration))
      else (c, .invoke sample observation.outcome)

/-! ## Phase 3: accounting -/

/-- The record and data sections after a callback that returned. -/
def deliverSample (c : Impl) (sample : Sample) : Impl :=
  let deliveryTimes := pruneRateWindow (c.deliveryTimes ++ [sample.receivedAt]) sample.receivedAt
  { c with
    lastDeliveryAt := sample.receivedAt
    latest := some sample
    deliveryTimes
    health :=
      { c.health with
        deliveredCount := c.health.deliveredCount + 1
        deliveryRateHz := deliveryTimes.length }
    deliveredGeneration := c.generation }

def finishRecord (c : Impl) (sample : Sample) (outcome : Option SessionResult) :
    CallbackResult → Impl × Option SessionResult
  | .returned => (c.deliverSample sample, outcome)
  | .threw what =>
    (c.recordCallbackError (what.getD "sample callback failed"),
      callbackFailureOutcome c.config outcome)

/-- `handle_record`.  An installed callback ends as `result` says; an empty one is not invoked. -/
def handleRecord (c : Impl) (record : RawRecord) (receivedAt : TimePoint)
    (result : CallbackResult) : Impl × Except String (Option SessionResult) :=
  match c.prepareRecord record receivedAt with
  | (c, .raised what) => (c, .error what)
  | (c, .done outcome) => (c, .ok outcome)
  | (c, .invoke sample outcome) =>
    let (c, outcome) :=
      c.finishRecord sample outcome (if c.callback.isSome then result else .returned)
    (c, .ok outcome)

end Impl

/-! ## What the verdict amounts to -/

theorem verdict_deliver (config : Config) (rdt : SequenceKind) (ft : FtSequenceKind)
    (severity : StatusSeverity) :
    (verdict config rdt ft severity).1 =
      (!rdt.dropped && !ft.discontinuity &&
        (severity != .Error || config.deliverSamplesWithErrorStatus)) := by
  unfold verdict
  cases hft : ft.discontinuity <;> cases severity <;> simp [Bool.and_comm]

/-- Under FailStop a record is fatal for its status first, then for its FT progress. -/
theorem verdict_failStop {config : Config} (hpolicy : config.recoveryPolicy = .FailStop)
    (rdt : SequenceKind) (ft : FtSequenceKind) (severity : StatusSeverity) :
    (verdict config rdt ft severity).2 =
      if severity = .Error then some .SeriousStatus
      else if ft = .Stall then some .FtStall
      else if ft = .Backward then some .FtBackward
      else none := by
  unfold verdict
  cases ft <;> cases severity <;> simp [hpolicy, FtSequenceKind.discontinuity]

/-- Under Reconnect the FT discontinuities are forgiven; a serious status still ends the session. -/
theorem verdict_reconnect {config : Config} (hpolicy : config.recoveryPolicy = .Reconnect)
    (rdt : SequenceKind) (ft : FtSequenceKind) (severity : StatusSeverity) :
    (verdict config rdt ft severity).2 =
      if severity = .Error then some .SeriousStatus else none := by
  unfold verdict
  cases ft <;> cases severity <;> simp [hpolicy, FtSequenceKind.discontinuity]

/-! ## The outcomes of a record -/

/-- The ways in which one record can end a session. -/
def recordOutcomes : List SessionResult :=
  [.SeriousStatus, .FtStall, .FtBackward, .SensorConfiguration, .Callback]

theorem verdict_mem {config : Config} {rdt : SequenceKind} {ft : FtSequenceKind}
    {severity : StatusSeverity} {outcome : SessionResult}
    (h : (verdict config rdt ft severity).2 = some outcome) : outcome ∈ recordOutcomes := by
  cases hpolicy : config.recoveryPolicy with
  | FailStop =>
    rw [verdict_failStop hpolicy] at h
    split_ifs at h <;> simp only [Option.some.injEq] at h <;> subst h <;> decide
  | Reconnect =>
    rw [verdict_reconnect hpolicy] at h
    split_ifs at h
    simp only [Option.some.injEq] at h
    subst h
    decide

namespace Impl

theorem observeRecord_outcome {c c' : Impl} {record : RawRecord} {receivedAt : TimePoint}
    {observation : Observation} (h : c.observeRecord record receivedAt = (c', .ok observation)) :
    observation.outcome =
      (verdict c.config (c.rdtSequence.observe record.rdtSequence).1.kind
        (c.ftSequence.observe record.ftSequence).1 (classifyStatus record.status)).2 := by
  unfold observeRecord at h
  cases hconf : c.health.sensorConfiguration with
  | none => simp [hconf] at h
  | some configuration =>
    simp only [hconf, Prod.mk.injEq, Except.ok.injEq] at h
    rw [← h.2]

theorem handleRecord_outcome_mem {c c' : Impl} {record : RawRecord} {receivedAt : TimePoint}
    {result : CallbackResult} {outcome : SessionResult}
    (h : c.handleRecord record receivedAt result = (c', .ok (some outcome))) :
    outcome ∈ recordOutcomes := by
  have hobserved : ∀ c' observation, c.observeRecord record receivedAt = (c', .ok observation) →
      ∀ o, observation.outcome = some o → o ∈ recordOutcomes := fun c' observation hobs o ho =>
    verdict_mem (by rw [← observeRecord_outcome hobs, ho])
  unfold handleRecord prepareRecord at h
  cases hobs : c.observeRecord record receivedAt with
  | mk c₁ observed =>
    cases observed with
    | error what => simp [hobs] at h
    | ok observation =>
      simp only [hobs] at h
      have hmem := hobserved c₁ observation hobs
      split_ifs at h
      · simp only [Prod.mk.injEq, Except.ok.injEq] at h
        exact hmem outcome h.2
      · simp only [Prod.mk.injEq, Except.ok.injEq, Option.some.injEq] at h
        rw [← h.2]
        decide
      · simp only [finishRecord] at h
        split at h
        · simp only [Prod.mk.injEq, Except.ok.injEq] at h
          exact hmem outcome h.2
        · simp only [Prod.mk.injEq, Except.ok.injEq, callbackFailureOutcome] at h
          split_ifs at h
          · exact hmem outcome h.2
          · simp only [Option.some.injEq] at h
            rw [← h.2]
            decide

end Impl

/-! ## Scaling a validated configuration -/

/-- The samples of a validated calibration are finite. -/
theorem sampleOf_isFinite {record : RawRecord} {configuration : SensorConfiguration}
    (hrecord : record.InRange) (hvalid : configuration.calibration.Valid) (receivedAt : TimePoint) :
    Sample.isFinite (sampleOf record configuration receivedAt) = true := by
  have hforce : ∀ raw ∈ [record.fx, record.fy, record.fz],
      (Double.ofRat (raw / configuration.calibration.countsPerForceUnit)).isFinite = true :=
    fun raw hraw => scaled_isFinite
      (hrecord raw (by simp only [List.mem_cons] at hraw ⊢; tauto)) hvalid.force
  have htorque : ∀ raw ∈ [record.tx, record.ty, record.tz],
      (Double.ofRat (raw / configuration.calibration.countsPerTorqueUnit)).isFinite = true :=
    fun raw hraw => scaled_isFinite
      (hrecord raw (by simp only [List.mem_cons] at hraw ⊢; tauto)) hvalid.torque
  simp only [List.mem_cons, List.not_mem_nil, or_false, forall_eq_or_imp, forall_eq] at hforce htorque
  simp [Sample.isFinite, sampleOf, Triple.all, Triple.map, hforce, htorque]

/-! ## What a record leaves alone -/

namespace Impl

/-- Only the trackers, the receive window and the health snapshot move before the callback. -/
theorem observeRecord_frame (c : Impl) (record : RawRecord) (receivedAt : TimePoint) :
    ∃ rdtSequence ftSequence health receiveTimes lastRecordAt,
      (c.observeRecord record receivedAt).1 =
        { c with rdtSequence, ftSequence, health, receiveTimes, lastRecordAt } := by
  unfold observeRecord
  cases hconf : c.health.sensorConfiguration with
  | none =>
    simp only [hconf]
    exact ⟨_, _, c.health, c.receiveTimes, c.lastRecordAt, rfl⟩
  | some configuration =>
    simp only [hconf]
    exact ⟨_, _, _, _, _, rfl⟩

theorem prepareRecord_fst (c : Impl) (record : RawRecord) (receivedAt : TimePoint) :
    (c.prepareRecord record receivedAt).1 = (c.observeRecord record receivedAt).1 := by
  unfold prepareRecord
  split
  · rename_i h
    rw [h]
  · rename_i h
    simp only [h]
    split_ifs <;> rfl

/-- A handled record leaves the lifecycle, the command state and the fault latch alone. -/
theorem handleRecord_frame (c : Impl) (record : RawRecord) (receivedAt : TimePoint)
    (result : CallbackResult) :
    ∃ rdtSequence ftSequence lastDeliveryAt health latest receiveTimes lastRecordAt deliveryTimes
        deliveredGeneration,
      (c.handleRecord record receivedAt result).1 =
        { c with
          rdtSequence, ftSequence, lastDeliveryAt, health, latest, receiveTimes, lastRecordAt
          deliveryTimes, deliveredGeneration } := by
  obtain ⟨rdt, ft, health, times, last, hprep⟩ := c.observeRecord_frame record receivedAt
  rw [← prepareRecord_fst] at hprep
  unfold handleRecord
  cases hcase : c.prepareRecord record receivedAt with
  | mk c' prepared =>
    rw [hcase] at hprep
    simp only at hprep
    subst hprep
    cases prepared with
    | raised what => exact ⟨_, _, _, _, _, _, _, _, _, rfl⟩
    | done outcome => exact ⟨_, _, _, _, _, _, _, _, _, rfl⟩
    | invoke sample outcome =>
      simp only [finishRecord, deliverSample, recordCallbackError]
      split <;> exact ⟨_, _, _, _, _, _, _, _, _, rfl⟩

theorem handleRecord_config (c : Impl) (record : RawRecord) (receivedAt : TimePoint)
    (result : CallbackResult) : (c.handleRecord record receivedAt result).1.config = c.config := by
  obtain ⟨_, _, _, _, _, _, _, _, _, h⟩ := c.handleRecord_frame record receivedAt result
  rw [h]

/-- The part of the health snapshot that sessions own: a record does not touch it. -/
structure SameSessionHealth (h h' : HealthSnapshot) : Prop where
  faultCode : h'.faultCode = h.faultCode
  sensorConfiguration : h'.sensorConfiguration = h.sensorConfiguration
  malformedCount : h'.malformedCount = h.malformedCount
  reconnectCount : h'.reconnectCount = h.reconnectCount
  timeoutCount : h'.timeoutCount = h.timeoutCount
  calibrationChangeCount : h'.calibrationChangeCount = h.calibrationChangeCount

theorem observedHealth_sameSession (c : Impl) (record : RawRecord) (receiveTimes : List TimePoint)
    (rdt : SequenceObservation) (ft : FtSequenceKind) (severity : StatusSeverity) :
    SameSessionHealth c.health (c.observedHealth record receiveTimes rdt ft severity) := by
  unfold observedHealth countRdt countFt countSeverity
  cases rdt.kind <;> cases ft <;> cases severity <;> exact ⟨rfl, rfl, rfl, rfl, rfl, rfl⟩

theorem observeRecord_sameSession (c : Impl) (record : RawRecord) (receivedAt : TimePoint) :
    SameSessionHealth c.health (c.observeRecord record receivedAt).1.health := by
  unfold observeRecord
  cases hconf : c.health.sensorConfiguration with
  | none =>
    simp only [hconf]
    exact ⟨rfl, rfl, rfl, rfl, rfl, rfl⟩
  | some configuration =>
    simp only [hconf]
    split_ifs
    all_goals
      obtain ⟨h₁, h₂, h₃, h₄, h₅, h₆⟩ := observedHealth_sameSession
        { c with
          rdtSequence := (c.rdtSequence.observe record.rdtSequence).2
          ftSequence := (c.ftSequence.observe record.ftSequence).2 }
        record (pruneRateWindow (c.receiveTimes ++ [receivedAt]) receivedAt)
        (c.rdtSequence.observe record.rdtSequence).1 (c.ftSequence.observe record.ftSequence).1
        (classifyStatus record.status)
      exact ⟨h₁, h₂, h₃, h₄, h₅, h₆⟩

theorem handleRecord_sameSession (c : Impl) (record : RawRecord) (receivedAt : TimePoint)
    (result : CallbackResult) :
    SameSessionHealth c.health (c.handleRecord record receivedAt result).1.health := by
  have h := c.observeRecord_sameSession record receivedAt
  rw [← prepareRecord_fst] at h
  unfold handleRecord
  cases hcase : c.prepareRecord record receivedAt with
  | mk c' prepared =>
    rw [hcase] at h
    obtain ⟨h₁, h₂, h₃, h₄, h₅, h₆⟩ := h
    cases prepared with
    | raised what => exact ⟨h₁, h₂, h₃, h₄, h₅, h₆⟩
    | done outcome => exact ⟨h₁, h₂, h₃, h₄, h₅, h₆⟩
    | invoke sample outcome =>
      simp only [finishRecord, deliverSample, recordCallbackError]
      split <;> exact ⟨h₁, h₂, h₃, h₄, h₅, h₆⟩

end Impl

/-! ## One record, at a glance -/

namespace Impl

/-- Whether the record reaches the callback, scaled values being finite. -/
def delivers (c : Impl) (record : RawRecord) (receivedAt : TimePoint) : Bool :=
  (verdict c.config (c.rdtSequence.observe record.rdtSequence).1.kind
      (c.ftSequence.observe record.ftSequence).1 (classifyStatus record.status)).1 &&
    !rateLimited c.config c.lastDeliveryAt receivedAt

/-- The outcome computed under the locks. -/
def recordOutcome (c : Impl) (record : RawRecord) : Option SessionResult :=
  (verdict c.config (c.rdtSequence.observe record.rdtSequence).1.kind
    (c.ftSequence.observe record.ftSequence).1 (classifyStatus record.status)).2

/-- Both trackers observe every record, delivered or not; the rate limiter's clock does not move. -/
theorem observeRecord_trackers (c : Impl) (record : RawRecord) (receivedAt : TimePoint) :
    (c.observeRecord record receivedAt).1.rdtSequence =
        (c.rdtSequence.observe record.rdtSequence).2 ∧
      (c.observeRecord record receivedAt).1.ftSequence =
        (c.ftSequence.observe record.ftSequence).2 ∧
      (c.observeRecord record receivedAt).1.lastDeliveryAt = c.lastDeliveryAt := by
  unfold observeRecord
  cases hconf : c.health.sensorConfiguration <;> simp [hconf]

theorem handleRecord_trackers (c : Impl) (record : RawRecord) (receivedAt : TimePoint)
    (result : CallbackResult) :
    (c.handleRecord record receivedAt result).1.rdtSequence =
        (c.rdtSequence.observe record.rdtSequence).2 ∧
      (c.handleRecord record receivedAt result).1.ftSequence =
        (c.ftSequence.observe record.ftSequence).2 := by
  obtain ⟨hrdt, hft, -⟩ := c.observeRecord_trackers record receivedAt
  rw [← prepareRecord_fst] at hrdt hft
  unfold handleRecord
  cases hcase : c.prepareRecord record receivedAt with
  | mk c' prepared =>
    rw [hcase] at hrdt hft
    cases prepared with
    | raised what => exact ⟨hrdt, hft⟩
    | done outcome => exact ⟨hrdt, hft⟩
    | invoke sample outcome =>
      simp only [finishRecord, deliverSample, recordCallbackError]
      split <;> exact ⟨hrdt, hft⟩

/-- If its scaled values are finite, a record is either withheld or reaches the callback. -/
theorem prepareRecord_of_finite {c : Impl} {record : RawRecord} {configuration : SensorConfiguration}
    {receivedAt : TimePoint} (hconf : c.health.sensorConfiguration = some configuration)
    (hfinite : Sample.isFinite (sampleOf record configuration receivedAt) = true) :
    c.prepareRecord record receivedAt =
      ((c.observeRecord record receivedAt).1,
        if c.delivers record receivedAt then
          .invoke (sampleOf record configuration receivedAt) (c.recordOutcome record)
        else .done (c.recordOutcome record)) := by
  unfold prepareRecord observeRecord
  simp only [hconf, hfinite, Bool.not_true, Bool.false_eq_true, if_false]
  unfold delivers recordOutcome
  cases (verdict c.config (c.rdtSequence.observe record.rdtSequence).1.kind
    (c.ftSequence.observe record.ftSequence).1 (classifyStatus record.status)).1 <;>
    cases rateLimited c.config c.lastDeliveryAt receivedAt <;> rfl

/-- With a validated configuration, a record is either withheld or reaches the callback. -/
theorem prepareRecord_spec {c : Impl} {record : RawRecord} {configuration : SensorConfiguration}
    (hconf : c.health.sensorConfiguration = some configuration)
    (hvalid : configuration.calibration.Valid) (hrecord : record.InRange) (receivedAt : TimePoint) :
    c.prepareRecord record receivedAt =
      ((c.observeRecord record receivedAt).1,
        if c.delivers record receivedAt then
          .invoke (sampleOf record configuration receivedAt) (c.recordOutcome record)
        else .done (c.recordOutcome record)) :=
  prepareRecord_of_finite hconf (sampleOf_isFinite hrecord hvalid receivedAt)

/-- How `handle_record` ends, with a validated configuration. -/
theorem handleRecord_spec {c : Impl} {record : RawRecord} {configuration : SensorConfiguration}
    (hconf : c.health.sensorConfiguration = some configuration)
    (hvalid : configuration.calibration.Valid) (hrecord : record.InRange) (receivedAt : TimePoint)
    (result : CallbackResult) :
    c.handleRecord record receivedAt result =
      if c.delivers record receivedAt then
        let (c', outcome) :=
          (c.observeRecord record receivedAt).1.finishRecord
            (sampleOf record configuration receivedAt) (c.recordOutcome record)
            (if c.callback.isSome then result else .returned)
        (c', .ok outcome)
      else ((c.observeRecord record receivedAt).1, .ok (c.recordOutcome record)) := by
  obtain ⟨_, _, _, _, _, hframe⟩ := c.observeRecord_frame record receivedAt
  have hcallback : (c.observeRecord record receivedAt).1.callback = c.callback := by rw [hframe]
  unfold handleRecord
  rw [prepareRecord_spec hconf hvalid hrecord]
  by_cases hdeliver : c.delivers record receivedAt = true
  · simp only [hdeliver, if_true, hcallback]
  · simp only [hdeliver, if_false, Bool.false_eq_true]

end Impl

end NetFT.Client
