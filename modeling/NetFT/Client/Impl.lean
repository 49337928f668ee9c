/-
# NetFT.Client.Impl — the state of `Client::Impl` and its locked sections.

`Impl` has the fields of `detail/client_impl.hpp`.  Every function below the state is one critical
section of `detail/client_impl.cpp` (the body under one `scoped_lock`), or one of the components it
calls (`FaultLatch`, `UdpTransport`), as a function on the state: the sequential model composes them
in program order, the interleaving model makes each of them one step.

* Command, record and data sections are named after what they do; the source function is in the
  docstring.
* A message that the operating system or a callee produces (`error.what()`) is an argument.
-/
import NetFT.Validate
import NetFT.Protocol
import NetFT.Sequence
import NetFT.Status

namespace NetFT.Client

/-! ## Session results -/

inductive SessionResult where
  | Stopped | SensorConfiguration | Timeout | Socket | SeriousStatus | FtStall | FtBackward
  | MalformedStorm | Callback
  deriving DecidableEq, Repr

structure SessionOutcome where
  result : SessionResult := .Stopped
  message : String := ""
  receivedValidRecord : Bool := false
  deriving DecidableEq, Repr

/-- `fault_for`. -/
def faultFor : SessionResult → FaultCode
  | .SensorConfiguration => .SensorConfiguration
  | .Timeout => .Timeout
  | .Socket => .Socket
  | .SeriousStatus => .SeriousStatus
  | .FtStall => .FtStall
  | .FtBackward => .FtBackward
  | .MalformedStorm => .MalformedStorm
  | .Callback => .Callback
  | .Stopped => .None

/-- `message_for`. -/
def messageFor : SessionResult → String
  | .SensorConfiguration => "sensor configuration discovery failed"
  | .Timeout => "no valid RDT record before timeout"
  | .Socket => "UDP socket failure"
  | .SeriousStatus => "serious device status"
  | .FtStall => "FT sequence stalled"
  | .FtBackward => "FT sequence moved backward"
  | .MalformedStorm => "malformed packet storm"
  | .Callback => "sample callback failed"
  | .Stopped => ""

/-- `run` fills in the default text of a session that ended without one. -/
def SessionOutcome.withMessage (outcome : SessionOutcome) : SessionOutcome :=
  if outcome.message = "" then { outcome with message := messageFor outcome.result } else outcome

theorem faultFor_eq_none_iff (result : SessionResult) : faultFor result = .None ↔ result = .Stopped := by
  cases result <;> simp [faultFor]

/-! ## The state -/

abbrev ThreadId := Nat

/-- `UdpTransport`: whether the socket is open, and the shutdown request that ends a receive. -/
structure UdpTransport where
  connected : Bool := false
  shutdownRequested : Bool := false
  deriving DecidableEq, Repr

/-- `std::function<void(const Sample &)>`: which function is installed (`none` is an empty one).
What an invocation does is an input of the model. -/
abbrev SampleCallback := Option Nat

structure Impl where
  config : Config
  -- lifecycle_mutex_
  worker : Option ThreadId := none
  activeWorkerId : Option ThreadId := none
  joining : Bool := false
  callback : SampleCallback := none
  -- atomics
  stopping : Bool := false
  workerExited : Bool := true
  faultLatch : FaultCode := .None
  -- command_mutex_
  transport : UdpTransport := {}
  sessionStarted : Bool := false
  -- record_mutex_
  rdtSequence : RdtSequenceTracker := {}
  ftSequence : FtSequenceTracker := {}
  lastDeliveryAt : TimePoint := 0
  -- data_mutex_
  health : HealthSnapshot := {}
  latest : Option Sample := none
  lastRecordAt : TimePoint := 0
  generation : Nat := 0
  deliveredGeneration : Nat := 0
  receiveTimes : List TimePoint := []
  deliveryTimes : List TimePoint := []
  consecutiveMalformed : Nat := 0
  deriving DecidableEq, Repr

namespace Impl

/-- The constructor, after `validate`. -/
def init (config : Config) : Impl :=
  { config, health := { sensorHost := config.sensorHost, rdtPort := config.rdtPort } }

/-! ## The fault latch -/

def faulted (c : Impl) : Bool := c.faultLatch != .None

def faultCode (c : Impl) : FaultCode := c.faultLatch

/-- `FaultLatch::publish`: the first code wins, and the health snapshot follows it. -/
def publishFault (c : Impl) (code : FaultCode) (message : String) : Impl :=
  if c.faultLatch = .None then
    { c with
      faultLatch := code
      health := { c.health with state := .Faulted, faultCode := code, lastError := message } }
  else c

/-- `FaultLatch::reset`. -/
def resetFault (c : Impl) : Impl := { c with faultLatch := .None }

/-! ## Observers -/

/-- `prune_rate_window`: drop the entries older than one second from the front. -/
def pruneRateWindow (times : List TimePoint) (now : TimePoint) : List TimePoint :=
  times.dropWhile fun front => ticksPerSecond < now - front

/-- `health`: prune both rate windows and report a latched fault as the state. -/
def healthAt (c : Impl) (now : TimePoint) : Impl × HealthSnapshot :=
  let receiveTimes := pruneRateWindow c.receiveTimes now
  let deliveryTimes := pruneRateWindow c.deliveryTimes now
  ({ c with receiveTimes, deliveryTimes },
    { c.health with
      faultCode := c.faultCode
      state := if c.faultCode ≠ .None then .Faulted else c.health.state
      receiveRateHz := receiveTimes.length
      deliveryRateHz := deliveryTimes.length
      lastRecordAge := if c.lastRecordAt ≠ 0 then some (now - c.lastRecordAt) else none })

/-- `latest_sample`. -/
def latestSample (c : Impl) : Option Sample := c.latest

/-- The predicate of `wait_for_first_sample`. -/
def firstSampleReady (c : Impl) (captured : Nat) : Bool :=
  c.generation != captured || c.deliveredGeneration == captured || c.stopping || c.faulted

/-! ## Data sections of the worker -/

def setState (c : Impl) (state : ClientState) : Impl :=
  { c with health := { c.health with state } }

def sameCalibration (left right : Calibration) : Bool :=
  left.countsPerForceUnit == right.countsPerForceUnit &&
    left.countsPerTorqueUnit == right.countsPerTorqueUnit &&
    left.forceUnit == right.forceUnit && left.torqueUnit == right.torqueUnit

/-- `apply_configuration`: the revision counts the changes of calibration. -/
def applyConfiguration (c : Impl) (configuration : SensorConfiguration) : Impl :=
  match c.health.sensorConfiguration with
  | some previous =>
    if sameCalibration previous.calibration configuration.calibration then
      { c with
        health :=
          { c.health with
            sensorConfiguration := some { configuration with revision := previous.revision } } }
    else
      { c with
        health :=
          { c.health with
            calibrationChangeCount := c.health.calibrationChangeCount + 1
            sensorConfiguration := some { configuration with revision := previous.revision + 1 } } }
  | none =>
    { c with
      health :=
        { c.health with sensorConfiguration := some { configuration with revision := 1 } } }

/-- Only the session's configuration and the count of its changes move. -/
theorem applyConfiguration_frame (c : Impl) (configuration : SensorConfiguration) :
    ∃ changes revision, c.applyConfiguration configuration =
      { c with
        health :=
          { c.health with
            calibrationChangeCount := changes
            sensorConfiguration := some { configuration with revision } } } := by
  unfold applyConfiguration
  split
  · split_ifs <;> exact ⟨_, _, rfl⟩
  · exact ⟨_, _, rfl⟩

/-- The timeout branch of `receive_session`. -/
def countTimeout (c : Impl) : Impl :=
  { c with health := { c.health with timeoutCount := c.health.timeoutCount + 1 } }

def kMalformedStormThreshold : Nat := 10

/-- The malformed branch of `receive_session`; the storm test reads the new counter. -/
def countMalformed (c : Impl) : Impl :=
  { c with
    consecutiveMalformed := c.consecutiveMalformed + 1
    health := { c.health with malformedCount := c.health.malformedCount + 1 } }

def malformedStorm (c : Impl) : Bool := kMalformedStormThreshold ≤ c.consecutiveMalformed

/-- A well-formed record ends a run of malformed ones. -/
def clearMalformed (c : Impl) : Impl := { c with consecutiveMalformed := 0 }

/-- `run` before the reconnect delay. -/
def enterBackoff (c : Impl) (message : String) : Impl :=
  { c with
    health :=
      { c.health with
        lastError := message
        state := .Backoff
        reconnectCount := c.health.reconnectCount + 1 } }

/-- `record_callback_error`. -/
def recordCallbackError (c : Impl) (message : String) : Impl :=
  { c with
    health :=
      { c.health with
        callbackErrorCount := c.health.callbackErrorCount + 1
        lastError := message } }

/-! ## The sections of `start` -/

/-- The record section of `start`: the rate limiter forgets the last delivery. -/
def clearLastDelivery (c : Impl) : Impl := { c with lastDeliveryAt := 0 }

/-- The data section of `start`: the latch and the data of the previous run are cleared, the counters
stay, and a new generation begins. -/
def beginGeneration (c : Impl) : Impl :=
  { c.resetFault with
    health :=
      { c.health with
        state := .Connecting
        faultCode := .None
        lastError := ""
        receiveRateHz := 0
        deliveryRateHz := 0 }
    latest := none
    lastRecordAt := 0
    generation := c.generation + 1
    deliveredGeneration := 0
    receiveTimes := []
    deliveryTimes := []
    consecutiveMalformed := 0 }

/-! ## Record and command sections -/

/-- The record section that opens a session. -/
def resetSequences (c : Impl) : Impl :=
  { c with rdtSequence := c.rdtSequence.reset, ftSequence := c.ftSequence.beginSession }

/-- The end of `bias`. -/
def resetRdtSequence (c : Impl) : Impl := { c with rdtSequence := c.rdtSequence.reset }

/-- `UdpTransport::connect` once a socket is connected. -/
def connectTransport (c : Impl) : Impl :=
  { c with transport := { connected := true, shutdownRequested := false } }

/-- `UdpTransport::shutdown`. -/
def shutdownTransport (c : Impl) : Impl :=
  { c with transport := { c.transport with shutdownRequested := true } }

/-- `UdpTransport::close`. -/
def closeTransport (c : Impl) : Impl :=
  { c with transport := { connected := false, shutdownRequested := true } }

/-- The flag that says a StartRealtime needs a StopStreaming. -/
def setSessionStarted (c : Impl) (started : Bool) : Impl := { c with sessionStarted := started }

/-- The check of `bias`. -/
def biasAllowed (c : Impl) : Bool :=
  !(c.stopping || !c.sessionStarted || c.faulted || c.health.state != .Streaming)

end Impl

end NetFT.Client
