/-
# NetFT.Plugin.Machine — the ros2_control plugin as an interleaving machine.

The framework makes one lifecycle callback or `read()` at a time; the client's worker (the sample
callback, and its own fault latch), the auxiliary executor (diagnostics, and its failure) and the
clock move in between.  One step of the machine is one access of shared data in
`netft_hardware_interface.cpp`, or one call of the client; `Call` is where the framework stands.

* What the system or a library decides is the `Choice` of a step: whether an allocation, `start()` or
  `set_state` succeeds, which stored sample `readFromRT` returns.
* `client` is the plugin's view of its `netft::Client`: whether a worker may run, the latch, and
  whether a sample of this generation was delivered.
* `stored` and `disturbed` are history: no step reads `disturbed`, and `stored` only says what
  `readFromRT` may return.
-/
import NetFT.Library.Transition
import NetFT.UnitConversion
import NetFT.Time
import Mathlib.Data.Fin.VecNotation

namespace NetFT.Plugin

open Library (Double)
open Library.Double (nearest)

/-! ## State -/

/-- The ros2_control API family the plugin is built for. -/
inductive Api where
  | Legacy | Modern
  deriving DecidableEq, Repr

structure Client where
  running : Bool := false
  fault : FaultCode := .None
  delivered : Bool := false
  deriving DecidableEq, Repr

/-- Where the client's worker stands in the sample callback. -/
inductive Receiver where
  | idle | stored | counted | overflowed
  deriving DecidableEq, Repr

/-- The auxiliary thread; `publishing` is between the two loads of `publish_diagnostics`. -/
inductive Auxiliary where
  | none | spinning | publishing (clientFault : FaultCode)
  deriving DecidableEq, Repr

/-- Who called `stop_and_invalidate`. -/
inductive Quiesce where
  | deactivate | error | cleanup | shutdown
  deriving DecidableEq, Repr

/-- A lifecycle callback, or `read()`. -/
inductive Callback where
  | configure | activate | quiesce (k : Quiesce) | read
  deriving DecidableEq, Repr

/-- What a `read()` that is about to return OK has loaded: the three latches, the sample, and the
clock at the staleness check. -/
structure Checked where
  clientFault : FaultCode
  fatalFault : FaultCode
  interfaceWriteFault : Bool
  sample : SiSample
  now : TimePoint
  deriving DecidableEq, Repr

inductive Returned where
  | configure (success : Bool)
  | activate (success : Bool)
  | quiesce (k : Quiesce)
  | readOk (checked : Checked)
  | readError
  deriving DecidableEq, Repr

/-- The framework's program counter; every constructor is named after the step that comes next. -/
inductive Call where
  | idle
  | configureStopAuxiliary | configureStopClient | configureResetClient | configureGeneration
  | configureWriteFault | configureFatalFault | configureInitBuffer | configureInvalidate
  | configureCreateClient | configureStartAuxiliary
  | activateHandles | activateGeneration | activateInvalidate | activateStart
  | activateRollback (previous : Client) | activateWait
  | activateFaulted | activateSampled | activateStop | activateFailed
  | quiesceStopClient (k : Quiesce) | quiesceGeneration (k : Quiesce) | quiesceInvalidate (k : Quiesce)
  | quiesceStopAuxiliary (k : Quiesce) | quiesceResetClient (k : Quiesce)
  | readBuffer | readFaulted (sample : SiSample) | readFaultCode (sample : SiSample)
  | readLatchedCode (sample : SiSample) | readLatch (sample : SiSample) (code : FaultCode)
  | readFatalFault (sample : SiSample) (clientFault : FaultCode)
  | readWriteFault (sample : SiSample) (clientFault fatalFault : FaultCode)
  | readFinite (sample : SiSample) (clientFault fatalFault : FaultCode) (writeFault : Bool)
  | readStale (sample : SiSample) (clientFault fatalFault : FaultCode) (writeFault : Bool)
  | readWrite (checked : Checked)
  | readLatchWriteFault
  | readFailed
  | returned (result : Returned)
  deriving DecidableEq, Repr

structure State where
  api : Api
  config : Config
  client : Option Client := none
  receiver : Receiver := .idle
  auxiliary : Auxiliary := .none
  sampleGeneration : Nat := 0
  interfaceWriteFault : Bool := false
  fatalFault : FaultCode := .None
  handles : Fin 6 → Bool := fun _ => false
  interfaces : Fin 6 → Double
  clock : TimePoint := 0
  call : Call := .idle
  /-- The samples that the sample callback wrote to the buffer, newest first. -/
  stored : List SiSample := []
  /-- The fault codes of the snapshots handed to the diagnostic evaluator, newest first. -/
  reports : List FaultCode := []
  /-- Since `on_configure` last cleared the latches, a `read()` returned ERROR, the sample callback
  overflowed, or the auxiliary executor failed. -/
  disturbed : Bool := false

/-! ## Inputs -/

/-- What a step leaves to the system: `ok` is the success of an allocation, a call or a wait, `sample`
what `readFromRT` returns, `accepted` which calls of `set_state` succeed, `handles` how many state
handles the framework hands out. -/
structure Choice where
  ok : Bool := true
  sample : SiSample := {}
  accepted : Fin 6 → Bool := fun _ => true
  handles : Nat := 6

inductive Input where
  | call (callback : Callback)
  | framework (choice : Choice)
  | sample (sample : Sample)
  | receiver
  | clientFault (code : FaultCode)
  | auxiliaryFailure
  | diagnostics
  | tick (ticks : Nat)

namespace State

/-! ## Helpers of the source -/

/-- `latch_fatal_fault`. -/
def latchFatalFault (s : State) (fault : FaultCode) : State :=
  { s with fatalFault := if s.fatalFault = .None then fault else s.fatalFault }

def axes (sample : SiSample) : Fin 6 → Double :=
  ![sample.force.x, sample.force.y, sample.force.z, sample.torque.x, sample.torque.y, sample.torque.z]

/-- `write_axes`: with the modern API the first `set_state` that fails ends the loop. -/
def writeAxes (s : State) (sample : SiSample) (accepted : Fin 6 → Bool) : State × Bool :=
  match s.api with
  | .Legacy => ({ s with interfaces := axes sample }, true)
  | .Modern =>
    ({ s with
        interfaces := fun i => if ∀ j ≤ i, accepted j = true then axes sample i else s.interfaces i },
      decide (∀ i, accepted i = true))

/-- `invalidate_interfaces`. -/
def invalidateInterfaces (s : State) (accepted : Fin 6 → Bool) : State :=
  match s.api with
  | .Legacy => { s with interfaces := fun _ => .nan }
  | .Modern =>
    { s with interfaces := fun i => if s.handles i && accepted i then .nan else s.interfaces i }

/-- `duration_cast<nanoseconds>(receive_timeout)`: a product of doubles, truncated. -/
def timeoutNanoseconds (config : Config) : Ticks := ⌊nearest (config.receiveTimeout * ticksPerSecond)⌋

/-- `sample_is_stale`, at the clock reading `now`. -/
def sampleIsStale (config : Config) (sample : SiSample) (now : TimePoint) : Bool :=
  decide (sample.receivedAt ≤ 0) || decide (timeoutNanoseconds config < now - sample.receivedAt)

def mapClient (s : State) (f : Client → Client) : State := { s with client := s.client.map f }

/-- `Client::stop`, which returns after the worker has ended. -/
def stopClient (s : State) : Option State :=
  match s.client with
  | none => some s
  | some client =>
    if s.receiver = .idle then some { s with client := some { client with running := false } } else none

/-- `stop_auxiliary`, which joins the auxiliary thread. -/
def stopAuxiliary (s : State) : Option State :=
  match s.auxiliary with
  | .publishing _ => none
  | _ => some { s with auxiliary := .none }

def goto (s : State) (call : Call) : State := { s with call }

/-- `read()` is about to return ERROR. -/
def readError (s : State) (choice : Choice) : State :=
  { (s.invalidateInterfaces choice.accepted).goto (.returned .readError) with disturbed := true }

/-! ## The framework's steps -/

def nextConfigure (s : State) (choice : Choice) : Option State :=
  match s.call with
  | .configureStopAuxiliary => (s.stopAuxiliary).map (·.goto .configureStopClient)
  | .configureStopClient => (s.stopClient).map (·.goto .configureResetClient)
  | .configureResetClient => some { s.goto .configureGeneration with client := none }
  | .configureGeneration => some { s.goto .configureWriteFault with sampleGeneration := 0 }
  | .configureWriteFault => some { s.goto .configureFatalFault with interfaceWriteFault := false }
  | .configureFatalFault =>
    some { s.goto .configureInitBuffer with fatalFault := .None, disturbed := false }
  | .configureInitBuffer => some (s.goto .configureInvalidate)
  | .configureInvalidate =>
    some ((s.invalidateInterfaces choice.accepted).goto .configureCreateClient)
  | .configureCreateClient =>
    if choice.ok then some { s.goto .configureStartAuxiliary with client := some {} }
    else some (s.goto (.returned (.configure false)))
  | .configureStartAuxiliary =>
    if choice.ok then some { s.goto (.returned (.configure true)) with auxiliary := .spinning }
    else some { s.goto (.returned (.configure false)) with client := none }
  | _ => none

def nextActivate (s : State) (choice : Choice) : Option State :=
  match s.call with
  | .activateHandles =>
    if s.client = none then some (s.goto (.returned (.activate false)))
    else
      match s.api with
      | .Legacy => some (s.goto .activateGeneration)
      | .Modern =>
        let s := { s with handles := fun i => s.handles i || decide (i.val < choice.handles) }
        some (s.goto (if 6 ≤ choice.handles then .activateGeneration else .activateFailed))
  | .activateGeneration => some { s.goto .activateInvalidate with sampleGeneration := 0 }
  | .activateInvalidate => some ((s.invalidateInterfaces choice.accepted).goto .activateStart)
  | .activateStart =>
    match s.client with
    | none => none
    | some client =>
      -- `start` throws while an unfaulted worker runs, and joins a faulted one
      if client.running ∧ client.fault = .None then
        if choice.ok then none else some (s.goto .activateFailed)
      else if s.receiver = .idle then
        -- it clears the fault, and then creates the thread
        if choice.ok then some ({ s with client := some { running := true } }.goto .activateWait)
        else some ({ s with client := some {} }.goto (.activateRollback { client with running := false }))
      else none
  | .activateRollback previous => some ((s.mapClient fun _ => previous).goto .activateFailed)
  | .activateWait =>
    -- a true result attests a sample that was delivered in this generation
    if choice.ok then
      if s.client.any (·.delivered) then some (s.goto .activateFaulted) else none
    else some (s.goto .activateStop)
  | .activateFaulted =>
    some (s.goto (if s.client.any (·.fault ≠ .None) then .activateStop else .activateSampled))
  | .activateSampled =>
    some (s.goto (if s.sampleGeneration = 0 then .activateStop else .returned (.activate true)))
  | .activateStop => (s.stopClient).map (·.goto .activateFailed)
  | .activateFailed =>
    some ((s.invalidateInterfaces choice.accepted).goto (.returned (.activate false)))
  | _ => none

/-- `on_deactivate`, `on_error`, `on_cleanup`, `on_shutdown`. -/
def nextQuiesce (s : State) (choice : Choice) : Option State :=
  match s.call with
  | .quiesceStopClient k => (s.stopClient).map (·.goto (.quiesceGeneration k))
  | .quiesceGeneration k => some { s.goto (.quiesceInvalidate k) with sampleGeneration := 0 }
  | .quiesceInvalidate k =>
    let s := s.invalidateInterfaces choice.accepted
    match k with
    | .deactivate | .error => some (s.goto (.returned (.quiesce k)))
    | .cleanup | .shutdown => some (s.goto (.quiesceStopAuxiliary k))
  | .quiesceStopAuxiliary k => (s.stopAuxiliary).map (·.goto (.quiesceResetClient k))
  | .quiesceResetClient k => some { s.goto (.returned (.quiesce k)) with client := none }
  | _ => none

/-- `read`, with `fault_latched` inlined. -/
def nextRead (s : State) (choice : Choice) : Option State :=
  match s.call with
  | .readBuffer =>
    if choice.sample ∈ {} :: s.stored then some (s.goto (.readFaulted choice.sample)) else none
  | .readFaulted sample =>
    match s.client with
    | none => some (s.goto .readFailed)
    | some client =>
      some (s.goto
        (if client.fault = .None then .readFatalFault sample .None else .readFaultCode sample))
  | .readFaultCode sample =>
    match s.client with
    | none => none
    | some client =>
      some (s.goto
        (if client.fault = .None then .readFatalFault sample .None else .readLatchedCode sample))
  | .readLatchedCode sample =>
    match s.client with
    | none => none
    | some client => some (s.goto (.readLatch sample client.fault))
  | .readLatch sample code => some ((s.latchFatalFault code).goto (.readFatalFault sample code))
  | .readFatalFault sample clientFault =>
    if s.fatalFault = .None then some (s.goto (.readWriteFault sample clientFault s.fatalFault))
    else some (s.goto .readFailed)
  | .readWriteFault sample clientFault fatalFault =>
    if s.interfaceWriteFault then some (s.goto .readFailed)
    else some (s.goto (.readFinite sample clientFault fatalFault s.interfaceWriteFault))
  | .readFinite sample clientFault fatalFault writeFault =>
    if sampleIsFinite sample then some (s.goto (.readStale sample clientFault fatalFault writeFault))
    else some ((s.latchFatalFault .SensorConfiguration).goto .readFailed)
  | .readStale sample clientFault fatalFault interfaceWriteFault =>
    if sampleIsStale s.config sample s.clock then
      some ((s.latchFatalFault .Timeout).goto .readFailed)
    else
      some (s.goto
        (.readWrite { clientFault, fatalFault, interfaceWriteFault, sample, now := s.clock }))
  | .readWrite checked =>
    match s.writeAxes checked.sample choice.accepted with
    | (s, true) => some (s.goto (.returned (.readOk checked)))
    | (s, false) => some (s.goto .readLatchWriteFault)
  | .readLatchWriteFault => some { s.goto .readFailed with interfaceWriteFault := true }
  | .readFailed => some (s.readError choice)
  | _ => none

/-- The first step of a callback. -/
def entry : Callback → Call
  | .configure => .configureStopAuxiliary
  | .activate => .activateHandles
  | .quiesce k => .quiesceStopClient k
  | .read => .readBuffer

def next (s : State) : Input → Option State
  | .call callback =>
    match s.call with
    | .idle | .returned _ =>
      some (s.goto (entry callback))
    | _ => none
  | .framework choice =>
    (s.nextConfigure choice).or ((s.nextActivate choice).or
      ((s.nextQuiesce choice).or (s.nextRead choice)))
  | .sample sample =>
    -- the worker invokes the sample callback
    match s.client with
    | none => none
    | some client =>
      if client.running ∧ client.fault = .None ∧ s.receiver = .idle then
        match toSiSample sample with
        | .ok si => some { s with stored := si :: s.stored, receiver := .stored }
        | .error _ =>
          some { s.latchFatalFault .SensorConfiguration with receiver := .overflowed, disturbed := true }
      else none
  | .receiver =>
    match s.receiver with
    | .idle => none
    | .stored => some { s with sampleGeneration := s.sampleGeneration + 1, receiver := .counted }
    | .counted =>
      some { s.mapClient (fun client => { client with delivered := true }) with receiver := .idle }
    | .overflowed =>
      -- the exception reaches `handle_record`, and `run` latches it
      some
        { s.mapClient (fun client =>
            { client with fault := if client.fault = .None then .Callback else client.fault }) with
          receiver := .idle }
  | .clientFault code =>
    match s.client with
    | none => none
    | some client =>
      if client.running ∧ client.fault = .None ∧ s.receiver = .idle ∧ code ≠ .None then
        some { s with client := some { client with fault := code } }
      else none
  | .auxiliaryFailure =>
    if s.auxiliary = .spinning then
      some { s.latchFatalFault .Callback with auxiliary := .none, disturbed := true }
    else none
  | .diagnostics =>
    match s.auxiliary, s.client with
    | .spinning, some client => some { s with auxiliary := .publishing client.fault }
    | .publishing clientFault, _ =>
      some
        { s with
          auxiliary := .spinning
          reports := (if clientFault = .None then s.fatalFault else clientFault) :: s.reports }
    | _, _ => none
  | .tick ticks => some { s with clock := s.clock + ticks }

/-- The plugin after a successful `on_init`: nothing is configured; the legacy interfaces are
invalidated, the modern ones belong to the framework. -/
def init (api : Api) (config : Config) (interfaces : Fin 6 → Double) : State :=
  { api, config,
    interfaces := match api with | .Legacy => fun _ => .nan | .Modern => interfaces }

end State

/-- One step of the plugin and its environment. -/
abbrev Step : State → Input → State → Prop := Library.stepOf State.next

end NetFT.Plugin
