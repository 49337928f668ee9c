/-
# NetFT.Types — the public value types of the client (`netft/types.hpp`).

Enumerations, configuration, calibration, samples and the health snapshot, in the order in which
the header declares them.  Two conventions hold in the whole development:

* a `std::chrono::duration<double>` is a rational number of seconds (`Seconds`), a steady-clock time
  point or clock duration is an integer number of ticks (`TimePoint`, `Ticks`); `validate` rejects
  what is not finite before any other function sees it;
* the 64-bit counters of `HealthSnapshot` are natural numbers, and the two rates are the lengths of
  the rate windows they are computed from.
-/
import Mathlib.Data.Rat.Defs
import NetFT.Library.Binary64

namespace NetFT

open Library (Double)

/-! ## Clock values -/

/-- Clock ticks (`steady_clock::duration`, nanoseconds). -/
abbrev Ticks := Int

/-- A steady-clock time point, in ticks since the clock's epoch. -/
abbrev TimePoint := Int

/-- `std::chrono::duration<double>`: exact seconds. -/
abbrev Seconds := ℚ

/-! ## Enumerations -/

/-- The force units of `types.hpp`. -/
inductive ForceUnit where
  | Unknown | PoundForce | Newton | KiloPoundForce | KiloNewton | KilogramForce
  deriving DecidableEq, Repr

/-- The torque units. -/
inductive TorqueUnit where
  | Unknown | PoundForceInch | PoundForceFoot | NewtonMeter | NewtonMillimeter
  | KilogramForceCentimeter | KiloNewtonMeter
  deriving DecidableEq, Repr

/-- Where the calibration of a sensor configuration comes from. -/
inductive CalibrationSource where
  | Sensor | Override
  deriving DecidableEq, Repr

/-- What the client does when a session fails. -/
inductive RecoveryPolicy where
  | Reconnect | FailStop
  deriving DecidableEq, Repr

/-- The states that `health()` reports. -/
inductive ClientState where
  | Stopped | Connecting | Streaming | Backoff | Faulted
  deriving DecidableEq, Repr

/-- Why a client is faulted; `None` if it is not. -/
inductive FaultCode where
  | None | SensorConfiguration | Timeout | Socket | SeriousStatus | FtStall | FtBackward
  | MalformedStorm | Callback
  deriving DecidableEq, Repr

def ForceUnit.toString : ForceUnit → String
  | .PoundForce => "lbf"
  | .Newton => "N"
  | .KiloPoundForce => "klbf"
  | .KiloNewton => "kN"
  | .KilogramForce => "kgf"
  | .Unknown => "unknown"

def TorqueUnit.toString : TorqueUnit → String
  | .PoundForceInch => "lbf-in"
  | .PoundForceFoot => "lbf-ft"
  | .NewtonMeter => "N-m"
  | .NewtonMillimeter => "N-mm"
  | .KilogramForceCentimeter => "kgf-cm"
  | .KiloNewtonMeter => "kN-m"
  | .Unknown => "unknown"

def ClientState.toString : ClientState → String
  | .Stopped => "stopped"
  | .Connecting => "connecting"
  | .Streaming => "streaming"
  | .Backoff => "backoff"
  | .Faulted => "faulted"

def FaultCode.toString : FaultCode → String
  | .None => "none"
  | .SensorConfiguration => "sensor_configuration"
  | .Timeout => "timeout"
  | .Socket => "socket"
  | .SeriousStatus => "serious_status"
  | .FtStall => "ft_stall"
  | .FtBackward => "ft_backward"
  | .MalformedStorm => "malformed_storm"
  | .Callback => "callback"

/-! ## Configuration -/

/-- Counts per unit of force and torque, with the units. -/
structure Calibration where
  countsPerForceUnit : ℚ := 0
  countsPerTorqueUnit : ℚ := 0
  forceUnit : ForceUnit := .Unknown
  torqueUnit : TorqueUnit := .Unknown
  deriving DecidableEq, Repr

/-- What a client knows of its sensor. -/
structure SensorConfiguration where
  productName : String := ""
  calibration : Calibration
  source : CalibrationSource := .Sensor
  revision : Nat := 1
  deriving DecidableEq, Repr

/-- The configuration of a client, with the source's defaults. -/
structure Config where
  sensorHost : String := "192.168.1.1"
  rdtPort : Int := 49152
  httpPort : Int := 80
  receiveTimeout : Seconds := 1 / 10
  configurationConnectTimeout : Seconds := 1 / 2
  configurationTimeout : Seconds := 1
  reconnectInitialDelay : Seconds := 1 / 4
  reconnectMaxDelay : Seconds := 5
  sampleRateLimitHz : ℚ := 0
  deliverSamplesWithErrorStatus : Bool := false
  recoveryPolicy : RecoveryPolicy := .Reconnect
  calibrationOverride : Option Calibration := none
  deriving DecidableEq, Repr

/-! ## Samples -/

/-- `std::array<T, 3>`: the three axes of a force or a torque. -/
structure Triple (α : Type) where
  x : α
  y : α
  z : α
  deriving DecidableEq, Repr

def Triple.map {α β : Type} (f : α → β) (t : Triple α) : Triple β := ⟨f t.x, f t.y, f t.z⟩

/-- `std::all_of` over the three axes. -/
def Triple.all {α : Type} (p : α → Bool) (t : Triple α) : Bool := p t.x && p t.y && p t.z

/-- One delivered sample, in the sensor's units. -/
structure Sample where
  rdtSequence : UInt32
  ftSequence : UInt32
  status : UInt32
  rawWrench : Triple Int × Triple Int
  force : Triple Double
  torque : Triple Double
  forceUnit : ForceUnit := .Unknown
  torqueUnit : TorqueUnit := .Unknown
  configurationRevision : Nat := 0
  receivedAt : TimePoint := 0
  deriving DecidableEq, Repr

/-! ## Health -/

/-- The health of a client.  A counter here is the number of events counted; the source's `std::uint64_t`
holds it modulo 2^64 (`HealthSnapshot.counter`). -/
structure HealthSnapshot where
  state : ClientState := .Stopped
  faultCode : FaultCode := .None
  sensorHost : String := ""
  rdtPort : Int := 0
  sensorConfiguration : Option SensorConfiguration := none
  lastRdtSequence : Option UInt32 := none
  lastFtSequence : Option UInt32 := none
  lastStatus : UInt32 := 0
  receiveRateHz : Nat := 0
  deliveryRateHz : Nat := 0
  receivedCount : Nat := 0
  deliveredCount : Nat := 0
  rateLimitedCount : Nat := 0
  deviceErrorCount : Nat := 0
  warningCount : Nat := 0
  lostCount : Nat := 0
  duplicateCount : Nat := 0
  outOfOrderCount : Nat := 0
  malformedCount : Nat := 0
  reconnectCount : Nat := 0
  timeoutCount : Nat := 0
  callbackErrorCount : Nat := 0
  ftStallCount : Nat := 0
  ftBackwardCount : Nat := 0
  ftRestartCount : Nat := 0
  calibrationChangeCount : Nat := 0
  lastRecordAge : Option Ticks := none
  lastError : String := ""
  lastFtProgress : String := "unknown"
  deriving DecidableEq, Repr

end NetFT
