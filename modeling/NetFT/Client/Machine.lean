/-
# NetFT.Client.Machine — `Client::Impl` as a program of threads.

Application threads, the worker and the thread of `DeferredDestroyer` run over the four mutexes and two
condition variables of `Client::Impl`.  One step is one section under a mutex, one load or store of an
atomic outside any, one call of the transport, one notify, or one part of a wait; `Pc` says where a
thread stands, and every constructor is named after the step that comes next.

* What the system, the network or the application decides is the `Choice` of a step.
* A call from the sample callback has the callback as its `Ctx`, and returns into it.
* Destruction begins only when no thread is in a call of the client, and ends the calls: the promise of
  `Client`'s owner.
* `created`, `joined` and `sessions` are history, and so is `handover`, which says where the handle of
  a worker is while it is in a local variable of `start` or `stop`; no step depends on them.
-/
import NetFT.Library.Outline
import NetFT.Client.Session

namespace NetFT.Client

set_option autoImplicit false

open Library.Threads (Tid Effect Instr Program Sys Thread)

/-! ## Shared state -/

/-- The mutexes of `Impl`. -/
inductive Mutex where
  | lifecycle | command | record | data
  deriving DecidableEq, Repr

/-- Its condition variables. -/
inductive CondVar where
  | lifecycle | firstSample
  deriving DecidableEq, Repr

/-- What the check of `bias` read. -/
structure BiasCheck where
  stopping : Bool
  sessionStarted : Bool
  faulted : Bool
  state : ClientState
  deriving DecidableEq, Repr

/-- A command handed to `UdpTransport::send`, and whether it was sent. -/
structure Attempt where
  command : Command
  sent : Bool
  check : Option BiasCheck := none
  deriving DecidableEq, Repr

/-- The attempts since each `connect`, the latest first; the last list is before the first `connect`. -/
abbrev Wire := List (List Attempt)

/-- A new session on the wire. -/
def Wire.connect (wire : Wire) : Wire := [] :: wire

/-- A command that is sent, or fails to be. -/
def Wire.attempt (wire : Wire) (a : Attempt) : Wire :=
  match wire with
  | [] => [[a]]
  | current :: earlier => (current ++ [a]) :: earlier

/-- What the threads share. -/
structure Shared where
  impl : Impl
  /-- The threads that are in a call of the client. -/
  busy : List Tid := []
  /-- The thread that destroys the client. -/
  destroyer : Option Tid := none
  /-- Whether `DeferredDestroyer` has the client in its queue. -/
  pending : Bool := false
  freed : Bool := false
  /-- The thread that moved the handle out of `worker_`, and the handle until it is joined. -/
  handover : Option (Tid × Option Tid) := none
  created : List Tid := []
  /-- Who joined whom, newest first. -/
  joined : List (Tid × Tid) := []
  sessions : Wire := [[]]

/-! ## Control points -/

/-- The locals of `receive_session`, with the reconnect delay of `run`. -/
structure Loop where
  backoff : Seconds
  deadline : TimePoint
  receivedValidRecord : Bool
  deriving DecidableEq, Repr

/-- The locals of `handle_record` around the invocation of the callback. -/
structure Invocation where
  loop : Loop
  sample : Sample
  outcome : Option SessionResult
  deriving DecidableEq, Repr

/-- Where a call was made: in an application thread, in `DeferredDestroyer`'s, or in the callback. -/
inductive Ctx where
  | outside
  | deferred
  | callback (k : Invocation)
  deriving DecidableEq, Repr

/-- The `previous_` locals of `start`. -/
structure Saved where
  stopping : Bool
  workerExited : Bool
  fault : FaultCode
  callback : SampleCallback
  lastDelivery : TimePoint := 0
  health : HealthSnapshot := {}
  latest : Option Sample := none
  lastRecord : TimePoint := 0
  generation : Nat := 0
  deliveredGeneration : Nat := 0
  receiveTimes : List TimePoint := []
  deliveryTimes : List TimePoint := []
  consecutiveMalformed : Nat := 0
  deriving DecidableEq, Repr

/-- Where a thread stands in `start`. -/
inductive StartPc where
  | lock | waitJoining | inspect | faulted | waitExited
  | join (w : Tid) | reaped | reapedNotify
  | record (saved : Saved) | data (saved : Saved) | stopping (saved : Saved) | exited (saved : Saved)
  | create (saved : Saved) | notifyFirst | notifyLifecycle | returned
  | rollbackStopping (saved : Saved) | rollbackExited (saved : Saved) | rollbackRecord (saved : Saved)
  | rollbackData (saved : Saved) | rollbackReset (saved : Saved) | rollbackPublish (saved : Saved)
  | rollbackNotifyFirst | rollbackNotifyLifecycle | threw
  deriving DecidableEq, Repr

/-- Who called `stop`: the application, `~Client` in the callback, `~Client` elsewhere (or
`DeferredDestroyer` in its place), or `~Impl`. -/
inductive Caller where
  | user | destroySelf | destroyClient | destroyImpl
  deriving DecidableEq, Repr

/-- Where it stands in `stop`. -/
inductive StopPc where
  | lock | notifyFirst | notifyLifecycle | command | self | waitJoining | idleFaulted | idleState
  | join (w : Tid) | relock | joinedState | joined | joinedNotifyLifecycle | joinedNotifyFirst
  | returned
  deriving DecidableEq, Repr

/-- Where it stands in `bias`. -/
inductive BiasPc where
  | command | record | check | send (found : BiasCheck) | restart | reset | threw | returned
  deriving DecidableEq, Repr

/-- Where it stands in `wait_for_first_sample`. -/
inductive WaitPc where
  | enter | waiting (captured : Nat) | final (captured : Nat) | returned (result : Bool)
  deriving DecidableEq, Repr

/-- The observers. -/
inductive Query where
  | health (now : TimePoint) | latestSample | faultCode
  deriving DecidableEq, Repr

/-- Where it stands in a destructor. -/
inductive DestroyPc where
  | check | enqueue | free
  deriving DecidableEq, Repr

/-- Where the worker stands in `run`. -/
inductive RunPc where
  | loop (backoff : Seconds) | connecting (backoff : Seconds) | stopping1 (backoff : Seconds)
  | discover (backoff : Seconds) | discoverFailed (backoff : Seconds) (what : String)
  | apply (backoff : Seconds) (configuration : SensorConfiguration) | stopping2 (backoff : Seconds)
  | connect (backoff : Seconds) | command (backoff : Seconds) | send (backoff : Seconds)
  | sendFailed (backoff : Seconds) (what : String) | reset (backoff : Seconds)
  | deadline (backoff : Seconds)
  | check (l : Loop) | clock (l : Loop) | timeout (l : Loop) | receive (l : Loop)
  | receiveFailed (l : Loop) (what : String) | received (l : Loop) (data : List UInt8)
  | malformed (l : Loop) | wellFormed (l : Loop) (record : RawRecord)
  | observe (l : Loop) (record : RawRecord) (receivedAt : TimePoint)
  | invoke (k : Invocation) | inCallback (k : Invocation)
  | callbackThrew (k : Invocation) (what : Option String)
  | deliver (k : Invocation) | deliveredFirst (k : Invocation) | deliveredLifecycle (k : Invocation)
  | close (backoff : Seconds) (outcome : SessionOutcome)
  | settle (backoff : Seconds) (outcome : SessionOutcome)
  | enterBackoff (backoff : Seconds) (message : String) | backoffLock (backoff : Seconds)
  | backoffWait (backoff : Seconds) | backoffDone (backoff : Seconds)
  | raised (what : String) | publish (code : FaultCode) (message : String)
  | publishNotifyFirst | publishNotifyLifecycle
  | finishClose | finishExited | finishFaulted | finishState | finishNotifyFirst
  | finishNotifyLifecycle | ended
  deriving DecidableEq, Repr

/-- Where a thread stands. -/
inductive Pc where
  /-- An application thread, or the id of a thread that does not exist yet. -/
  | outside
  /-- `DeferredDestroyer::run`, waiting for a client. -/
  | deferred
  | start (ctx : Ctx) (callback : SampleCallback) (pc : StartPc)
  | stop (ctx : Ctx) (caller : Caller) (pc : StopPc)
  | bias (ctx : Ctx) (pc : BiasPc)
  | waitForFirstSample (ctx : Ctx) (pc : WaitPc)
  | query (ctx : Ctx) (q : Query)
  | destroy (ctx : Ctx) (pc : DestroyPc)
  | run (pc : RunPc)
  deriving DecidableEq, Repr

/-- Where a call returns to. -/
def Ctx.resume : Ctx → Pc
  | .outside => .outside
  | .deferred => .deferred
  | .callback k => .run (.inCallback k)

/-! ## Choices -/

/-- What a user can call. -/
inductive Call where
  | start (callback : SampleCallback)
  | stop | bias | waitForFirstSample
  | query (q : Query)
  | destroy
  deriving DecidableEq, Repr

/-- What a step leaves open: `proceed` where nothing is, and otherwise how a call of the system ends. -/
inductive Choice where
  | proceed
  | fail (what : String)
  | configuration (configuration : SensorConfiguration)
  | reading (now : TimePoint)
  | received (data : List UInt8)
  | created (w : Tid)
  | returned
  | threw (what : Option String)
  | call (call : Call)
  deriving DecidableEq, Repr

abbrev Action := Tid → Choice → Shared → Option (Effect Shared Pc)

/-- How `UdpTransport::send` ends. -/
def sendResult (c : Impl) : Choice → Except String Unit
  | .fail what => .error what
  | _ => if c.transport.connected then .ok () else .error "UDP socket is not connected"

/-- `if (session_started_) { try { send(StopStreaming) } catch … }`, as `stop` and `close_session` do. -/
def stopStreaming (c : Impl) (choice : Choice) (wire : Wire) : Wire :=
  if c.sessionStarted then
    wire.attempt { command := .StopStreaming, sent := (sendResult c choice).isOk }
  else wire

namespace RunPc

/-! ## The worker -/

/-- `return outcome` in `receive_session`, when a stop request turns it into `Stopped`. -/
def endSession (c : Impl) (l : Loop) (result : SessionResult) (message : String := "") : RunPc :=
  .close l.backoff
    { result := if c.stopping then .Stopped else result
      message
      receivedValidRecord := l.receivedValidRecord }

/-- What follows `handle_record`. -/
def afterRecord (l : Loop) : Option SessionResult → RunPc
  | none => .check l
  | some result => .close l.backoff { result, receivedValidRecord := true }

/-- `receive_session` before its loop. -/
def stepOpen (pc : RunPc) (choice : Choice) (c : Impl) (wire : Wire) : Option (Impl × Wire × RunPc) :=
  match pc with
  | .connecting b => some (c.setState .Connecting, wire, .stopping1 b)
  | .stopping1 b => some (c, wire, if c.stopping then .close b {} else .discover b)
  | .discover b =>
    let discovery : Option (Except String SensorConfiguration) :=
      match choice with
      | .configuration configuration => some (.ok configuration)
      | .fail what => some (.error what)
      | _ => none
    discovery.map fun discovery =>
      match configurationForSession c.config discovery with
      | .ok configuration => (c, wire, .apply b configuration)
      | .error what => (c, wire, .discoverFailed b what)
  | .discoverFailed b what => some (c, wire, endSession c ⟨b, 0, false⟩ .SensorConfiguration what)
  | .apply b configuration => some (c.applyConfiguration configuration, wire, .stopping2 b)
  | .stopping2 b => some (c, wire, if c.stopping then .close b {} else .connect b)
  | .connect b =>
    match choice with
    | .proceed => some (c.connectTransport, wire.connect, .command b)
    | .fail what => some (c, wire, .sendFailed b what)
    | _ => none
  | .command b => some (c, wire, if c.stopping then .close b {} else .send b)
  | .send b =>
    match sendResult c choice with
    | .ok () =>
      some (c.setSessionStarted true, wire.attempt { command := .StartRealtime, sent := true }, .reset b)
    | .error what =>
      some (c, wire.attempt { command := .StartRealtime, sent := false }, .sendFailed b what)
  | .sendFailed b what => some (c, wire, endSession c ⟨b, 0, false⟩ .Socket what)
  | .reset b => some (c.resetSequences, wire, .deadline b)
  | .deadline b =>
    match choice with
    | .reading now =>
      match checkedDeadline now c.config.receiveTimeout with
      | .ok limit => some (c, wire, .check ⟨b, limit, false⟩)
      | .error what => some (c, wire, .raised what)
    | _ => none
  | _ => none

/-- The loop of `receive_session`, with `handle_record`. -/
def stepLoop (pc : RunPc) (choice : Choice) (c : Impl) : Option (Impl × RunPc) :=
  match pc with
  | .check l => some (c, if c.stopping then endSession c l .Stopped else .clock l)
  | .clock l =>
    match choice with
    | .reading now =>
      some (c,
        if l.deadline ≤ now then .timeout l
        else
          -- The conversion of what is left to wait, in `receive`, can throw.
          match checkedDuration (Ticks.toSeconds (l.deadline - now)) with
          | .ok _ => .receive l
          | .error what => .receiveFailed l what)
    | _ => none
  | .timeout l =>
    some (if c.stopping then c else c.countTimeout, endSession c l .Timeout)
  | .receive l =>
    match choice with
    | .received data => some (c, .received l data)
    | .fail what => some (c, .receiveFailed l what)
    | _ => none
  | .receiveFailed l what => some (c, endSession c l .Socket what)
  | .received l data =>
    some (c,
      if c.stopping then endSession c l .Stopped
      else if data = [] then .timeout l
      else
        match decodeRecord data with
        | .error _ => .malformed l
        | .ok record => .wellFormed l record)
  | .malformed l =>
    let c := c.countMalformed
    some (c,
      if c.malformedStorm then
        .close l.backoff { result := .MalformedStorm, receivedValidRecord := l.receivedValidRecord }
      else .check l)
  | .wellFormed l record =>
    match choice with
    | .reading now =>
      let c := c.clearMalformed
      match checkedDeadline now c.config.receiveTimeout with
      | .ok limit =>
        some (c, .observe { l with deadline := limit, receivedValidRecord := true } record now)
      | .error what => some (c, .raised what)
    | _ => none
  | .observe l record receivedAt =>
    match c.prepareRecord record receivedAt with
    | (c, .raised what) => some (c, .raised what)
    | (c, .done outcome) => some (c, afterRecord l outcome)
    | (c, .invoke sample outcome) => some (c, .invoke ⟨l, sample, outcome⟩)
  | .invoke k => some (c, if c.callback.isSome then .inCallback k else .deliver k)
  | .inCallback k =>
    match choice with
    | .returned => some (c, .deliver k)
    | .threw what => some (c, .callbackThrew k what)
    | _ => none
  | .callbackThrew k what =>
    some (c.recordCallbackError (what.getD "sample callback failed"),
      afterRecord k.loop (callbackFailureOutcome c.config k.outcome))
  | .deliver k => some (c.deliverSample k.sample, .deliveredFirst k)
  | _ => none

/-- `close_session`, the rest of `run`, and `finish_session`. -/
def stepClose (pc : RunPc) (choice : Choice) (c : Impl) (wire : Wire) : Option (Impl × Wire × RunPc) :=
  match pc with
  | .loop b => some (c, wire, if c.stopping || c.faulted then .finishClose else .connecting b)
  | .close b outcome => some (c.closeSession, stopStreaming c choice wire, .settle b outcome)
  | .settle b outcome =>
    let outcome := outcome.withMessage
    let backoff := if outcome.receivedValidRecord then c.config.reconnectInitialDelay else b
    some (c, wire,
      if outcome.result ≠ .Stopped ∧ c.config.recoveryPolicy = .FailStop then
        .publish (faultFor outcome.result) outcome.message
      else if outcome.result = .Stopped ∨ c.stopping then .finishClose
      else .enterBackoff backoff outcome.message)
  | .enterBackoff b message => some (c.enterBackoff message, wire, .backoffLock b)
  | .backoffLock b =>
    match choice with
    | .reading now =>
      match checkedDeadline now b with
      | .ok _ => some (c, wire, .backoffWait b)
      | .error what => some (c, wire, .raised what)
    | _ => none
  | .backoffDone b => some (c, wire, .loop (min (b * 2) c.config.reconnectMaxDelay))
  | .raised what => some (c, wire, if c.stopping then .finishClose else .publish .Socket what)
  | .publish code message => some (c.setFault code message, wire, .publishNotifyFirst)
  | .finishClose => some (c.closeSession, stopStreaming c choice wire, .finishExited)
  | .finishExited => some ({ c with workerExited := true }, wire, .finishFaulted)
  | .finishFaulted => some (c, wire, if c.faulted then .finishNotifyFirst else .finishState)
  | .finishState => some (c.setState .Stopped, wire, .finishNotifyFirst)
  | _ => none

/-- One action of the worker. -/
def step (pc : RunPc) (choice : Choice) (c : Impl) (wire : Wire) : Option (Impl × Wire × RunPc) :=
  (pc.stepOpen choice c wire).or
    (((pc.stepLoop choice c).map fun (c, pc) => (c, wire, pc)).or (pc.stepClose choice c wire))

/-- The mutexes that an action of the worker holds for its own duration. -/
def takes : RunPc → List Mutex
  | .command _ | .close _ _ | .finishClose => [.command]
  | .reset _ => [.record]
  | .observe _ _ _ | .deliver _ => [.record, .data]
  | .connecting _ | .apply _ _ | .timeout _ | .malformed _ | .wellFormed _ _ | .callbackThrew _ _
  | .enterBackoff _ _ | .backoffLock _ | .publish _ _ | .finishState => [.data]
  | _ => []

end RunPc

/-! ## Calls -/

/-- A call returns. -/
def Shared.leave (s : Shared) (t : Tid) : Shared := { s with busy := s.busy.erase t }

/-- A call of the client from the application or the callback. -/
def beginCall (ctx : Ctx) (t : Tid) (call : Call) (s : Shared) : Option (Effect Shared Pc) :=
  let entered := { s with busy := t :: s.busy }
  if s.destroyer.isSome then none
  else
    match call with
    | .start callback => some ⟨entered, .start ctx callback .lock, none⟩
    | .stop => some ⟨entered, .stop ctx .user .lock, none⟩
    | .bias => some ⟨entered, .bias ctx .command, none⟩
    | .waitForFirstSample => some ⟨entered, .waitForFirstSample ctx .enter, none⟩
    | .query q => some ⟨entered, .query ctx q, none⟩
    | .destroy =>
      if s.busy = [] then some ⟨{ s with destroyer := some t }, .destroy ctx .check, none⟩ else none

/-- A thread outside begins a call. -/
def outsideStep : Action := fun t choice s =>
  match choice with
  | .call call => beginCall .outside t call s
  | _ => none

/-- `DeferredDestroyer::run` takes a client from its queue. -/
def deferredStep : Action := fun t _ s =>
  if s.pending then
    some ⟨{ s with pending := false, destroyer := some t }, .stop .deferred .destroyClient .lock, none⟩
  else none

/-- `run`, under the mutexes of its control point. -/
def runStep (pc : RunPc) : Action := fun t choice s =>
  match pc, choice with
  | .inCallback k, .call call => beginCall (.callback k) t call s
  | pc, choice =>
    (pc.step choice s.impl s.sessions).map fun (impl, sessions, next) =>
      ⟨{ s with impl, sessions }, .run next, none⟩

/-! ## `start` -/

/-- `!worker_exited_ && active_worker_id_ == std::this_thread::get_id()`. -/
def Impl.calledFromWorkerThread (c : Impl) (t : Tid) : Bool :=
  !c.workerExited && c.activeWorkerId == some t

/-- `start` gives up and puts the previous data back (the data section of the rollback). -/
def Impl.restoreData (c : Impl) (saved : Saved) : Impl :=
  { c with
    health := saved.health
    latest := saved.latest
    lastRecordAt := saved.lastRecord
    generation := saved.generation
    deliveredGeneration := saved.deliveredGeneration
    receiveTimes := saved.receiveTimes
    deliveryTimes := saved.deliveryTimes
    consecutiveMalformed := saved.consecutiveMalformed }

/-- `start`. -/
def startStep (ctx : Ctx) (callback : SampleCallback) (pc : StartPc) : Action := fun t choice s =>
  let goto (s : Shared) (pc : StartPc) : Option (Effect Shared Pc) :=
    some ⟨s, .start ctx callback pc, none⟩
  let leave (s : Shared) : Option (Effect Shared Pc) := some ⟨s.leave t, ctx.resume, none⟩
  let c := s.impl
  match pc with
  | .lock => if c.calledFromWorkerThread t then leave s else goto s .waitJoining
  | .inspect =>
    match c.worker with
    | some w =>
      if c.workerExited then
        goto { s with impl := { c with worker := none, joining := true }, handover := some (t, some w) }
          (.join w)
      else goto s .faulted
    | none =>
      goto { s with impl := { c with callback := none } }
        (.record
          { stopping := c.stopping
            workerExited := c.workerExited
            fault := c.faultCode
            callback := c.callback })
  | .faulted => if c.faulted then goto s .waitExited else leave s
  | .reaped =>
    goto { s with impl := { c with activeWorkerId := none, joining := false }, handover := none }
      .reapedNotify
  | .record saved =>
    goto { s with impl := c.clearLastDelivery } (.data { saved with lastDelivery := c.lastDeliveryAt })
  | .data saved =>
    goto { s with impl := c.beginGeneration }
      (.stopping
        { saved with
          health := c.health
          latest := c.latest
          lastRecord := c.lastRecordAt
          generation := c.generation
          deliveredGeneration := c.deliveredGeneration
          receiveTimes := c.receiveTimes
          deliveryTimes := c.deliveryTimes
          consecutiveMalformed := c.consecutiveMalformed })
  | .stopping saved => goto { s with impl := { c with stopping := false } } (.exited saved)
  | .exited saved =>
    goto { s with impl := { c with workerExited := false, callback } } (.create saved)
  | .create saved =>
    match choice with
    | .created w =>
      some
        { shared :=
            { s with
              impl := { c with worker := some w, activeWorkerId := some w }
              created := w :: s.created }
          next := .start ctx callback .notifyFirst
          spawned := some (w, .run (.loop c.config.reconnectInitialDelay)) }
    | .fail _ => goto s (.rollbackStopping saved)
    | _ => none
  | .rollbackStopping saved =>
    goto { s with impl := { c with stopping := saved.stopping } } (.rollbackExited saved)
  | .rollbackExited saved =>
    goto { s with impl := { c with workerExited := saved.workerExited, callback := saved.callback } }
      (.rollbackRecord saved)
  | .rollbackRecord saved =>
    goto { s with impl := { c with lastDeliveryAt := saved.lastDelivery } } (.rollbackData saved)
  | .rollbackData saved => goto { s with impl := c.restoreData saved } (.rollbackReset saved)
  | .rollbackReset saved => goto { s with impl := c.resetFault } (.rollbackPublish saved)
  | .rollbackPublish saved =>
    goto
      { s with
        impl := if saved.fault ≠ .None then c.publishFault saved.fault saved.health.lastError else c }
      .rollbackNotifyFirst
  | .returned | .threw => leave s
  | _ => none

def StartPc.takes : StartPc → List Mutex
  | .record _ | .rollbackRecord _ => [.record]
  | .data _ | .rollbackData _ | .rollbackPublish _ => [.data]
  | .lock | .reaped => [.lifecycle]
  | _ => []

/-- The handle in a local variable is joined. -/
def recordJoin (w : Tid) (t : Tid) (s : Shared) : Shared :=
  { s with handover := some (t, none), joined := (t, w) :: s.joined }

/-! ## `stop` -/

/-- `stop`, for a user or for a destructor. -/
def stopStep (ctx : Ctx) (caller : Caller) (pc : StopPc) : Action := fun t choice s =>
  let goto (s : Shared) (pc : StopPc) : Option (Effect Shared Pc) :=
    some ⟨s, .stop ctx caller pc, none⟩
  let c := s.impl
  match pc with
  | .lock => goto { s with impl := { c with stopping := true } } .notifyFirst
  | .command =>
    goto
      { s with
        impl := (c.setSessionStarted false).shutdownTransport
        sessions := stopStreaming c choice s.sessions }
      .self
  | .self =>
    if c.calledFromWorkerThread t then goto s .returned
    else if c.joining then goto s .waitJoining
    else
      match c.worker with
      | none => goto s .idleFaulted
      | some w =>
        goto { s with impl := { c with worker := none, joining := true }, handover := some (t, some w) }
          (.join w)
  | .idleFaulted => goto s (if c.faulted then .returned else .idleState)
  | .idleState => goto { s with impl := c.setState .Stopped } .returned
  | .relock => goto s (if c.faulted then .joined else .joinedState)
  | .joinedState => goto { s with impl := c.setState .Stopped } .joined
  | .joined =>
    goto { s with impl := { c with activeWorkerId := none, joining := false }, handover := none }
      .joinedNotifyLifecycle
  | .returned =>
    match caller with
    | .user => some ⟨s.leave t, ctx.resume, none⟩
    | .destroySelf => some ⟨s, .destroy ctx .enqueue, none⟩
    | .destroyClient => some ⟨s, .stop ctx .destroyImpl .lock, none⟩
    | .destroyImpl => some ⟨s, .destroy ctx .free, none⟩
  | _ => none

def StopPc.takes : StopPc → List Mutex
  | .command => [.command]
  | .idleState | .joinedState => [.data]
  | _ => []

/-- `~Client` and what follows it. -/
def destroyStep (ctx : Ctx) (pc : DestroyPc) : Action := fun t _ s =>
  match pc with
  | .check =>
    some ⟨s, .stop ctx (if s.impl.calledFromWorkerThread t then .destroySelf else .destroyClient) .lock,
      none⟩
  | .enqueue => some ⟨{ s with pending := true }, ctx.resume, none⟩
  | .free => some ⟨{ s with freed := true }, ctx.resume, none⟩

def DestroyPc.takes : DestroyPc → List Mutex
  | .check => [.lifecycle]
  | _ => []

/-! ## `bias`, `wait_for_first_sample` and the observers -/

/-- `bias`. -/
def biasStep (ctx : Ctx) (pc : BiasPc) : Action := fun t choice s =>
  let goto (s : Shared) (pc : BiasPc) : Option (Effect Shared Pc) := some ⟨s, .bias ctx pc, none⟩
  let c := s.impl
  match pc with
  | .command => goto s .record
  | .record => goto s .check
  | .check =>
    goto s
      (if c.biasAllowed then
        .send
          { stopping := c.stopping
            sessionStarted := c.sessionStarted
            faulted := c.faulted
            state := c.health.state }
      else .threw)
  | .send found =>
    match sendResult c choice with
    | .ok () =>
      goto
        { s with
          sessions :=
            s.sessions.attempt { command := .SetSoftwareBias, sent := true, check := some found } }
        .restart
    | .error _ =>
      goto
        { s with
          sessions :=
            s.sessions.attempt { command := .SetSoftwareBias, sent := false, check := some found } }
        .threw
  | .restart =>
    match sendResult c choice with
    | .ok () =>
      goto { s with sessions := s.sessions.attempt { command := .StartRealtime, sent := true } } .reset
    | .error _ =>
      goto { s with sessions := s.sessions.attempt { command := .StartRealtime, sent := false } } .threw
  | .reset => goto { s with impl := c.resetRdtSequence } .returned
  | .threw | .returned => some ⟨s.leave t, ctx.resume, none⟩

def BiasPc.takes : BiasPc → List Mutex
  | .check => [.data]
  | _ => []

/-- `wait_for_first_sample`. -/
def waitStep (ctx : Ctx) (pc : WaitPc) : Action := fun t choice s =>
  let goto (pc : WaitPc) : Option (Effect Shared Pc) := some ⟨s, .waitForFirstSample ctx pc, none⟩
  match pc with
  | .enter =>
    match choice with
    | .fail _ => some ⟨s.leave t, ctx.resume, none⟩ -- `checked_deadline` threw
    | _ =>
      if s.impl.generation = 0 then goto (.returned false) else goto (.waiting s.impl.generation)
  | .final captured =>
    goto
      (.returned
        (s.impl.generation == captured && s.impl.deliveredGeneration == captured))
  | .returned _ => some ⟨s.leave t, ctx.resume, none⟩
  | _ => none

def WaitPc.takes : WaitPc → List Mutex
  | .enter => [.data]
  | _ => []

def queryStep (ctx : Ctx) (q : Query) : Action := fun t _ s =>
  match q with
  | .health now => some ⟨{ s.leave t with impl := (s.impl.healthAt now).1 }, ctx.resume, none⟩
  | .latestSample | .faultCode => some ⟨s.leave t, ctx.resume, none⟩

def Query.takes : Query → List Mutex
  | .health _ | .latestSample => [.data]
  | .faultCode => []

/-! ## The program -/

namespace Pc

/-- The action at a control point, where it is no notify, wait or join. -/
def action : Pc → Action
  | .outside => outsideStep
  | .deferred => deferredStep
  | .start ctx callback pc => startStep ctx callback pc
  | .stop ctx caller pc => stopStep ctx caller pc
  | .bias ctx pc => biasStep ctx pc
  | .waitForFirstSample ctx pc => waitStep ctx pc
  | .query ctx q => queryStep ctx q
  | .destroy ctx pc => destroyStep ctx pc
  | .run pc => runStep pc

def takes : Pc → List Mutex
  | .outside | .deferred => []
  | .start _ _ pc => pc.takes
  | .stop _ _ pc => pc.takes
  | .bias _ pc => pc.takes
  | .waitForFirstSample _ pc => pc.takes
  | .query _ q => q.takes
  | .destroy _ pc => pc.takes
  | .run pc => pc.takes

/-- The instruction at a control point. -/
def instr (p : Pc) : Instr Shared Pc Mutex CondVar Choice :=
  match p with
  | .start ctx callback .waitJoining =>
    .wait .lifecycle (fun s => !s.impl.joining) (.start ctx callback .inspect) none
  | .start ctx callback .waitExited =>
    .wait .lifecycle (fun s => s.impl.workerExited || !s.impl.faulted) (.start ctx callback .lock) none
  | .start ctx callback (.join w) => .join w (recordJoin w) (.start ctx callback .reaped)
  | .start ctx callback .reapedNotify => .notify .lifecycle (.start ctx callback .lock)
  | .start ctx callback .notifyFirst => .notify .firstSample (.start ctx callback .notifyLifecycle)
  | .start ctx callback .notifyLifecycle => .notify .lifecycle (.start ctx callback .returned)
  | .start ctx callback .rollbackNotifyFirst =>
    .notify .firstSample (.start ctx callback .rollbackNotifyLifecycle)
  | .start ctx callback .rollbackNotifyLifecycle => .notify .lifecycle (.start ctx callback .threw)
  | .stop ctx caller .notifyFirst => .notify .firstSample (.stop ctx caller .notifyLifecycle)
  | .stop ctx caller .notifyLifecycle => .notify .lifecycle (.stop ctx caller .command)
  | .stop ctx caller .waitJoining =>
    .wait .lifecycle (fun s => !s.impl.joining) (.stop ctx caller .lock) none
  | .stop ctx caller (.join w) => .join w (recordJoin w) (.stop ctx caller .relock)
  | .stop ctx caller .joinedNotifyLifecycle => .notify .lifecycle (.stop ctx caller .joinedNotifyFirst)
  | .stop ctx caller .joinedNotifyFirst => .notify .firstSample (.stop ctx caller .returned)
  | .waitForFirstSample ctx (.waiting captured) =>
    .wait .firstSample (fun s => s.impl.firstSampleReady captured)
      (.waitForFirstSample ctx (.final captured)) (some (.waitForFirstSample ctx (.final captured)))
  | .run (.deliveredFirst k) => .notify .firstSample (.run (.deliveredLifecycle k))
  | .run (.deliveredLifecycle k) => .notify .lifecycle (.run (.afterRecord k.loop k.outcome))
  | .run (.backoffWait b) =>
    .wait .firstSample (fun s => s.impl.stopping) (.run (.backoffDone b)) (some (.run (.backoffDone b)))
  | .run .publishNotifyFirst => .notify .firstSample (.run .publishNotifyLifecycle)
  | .run .publishNotifyLifecycle => .notify .lifecycle (.run .finishClose)
  | .run .finishNotifyFirst => .notify .firstSample (.run .finishNotifyLifecycle)
  | .run .finishNotifyLifecycle => .notify .lifecycle (.run .ended)
  | p => .act p.takes p.action

/-- The mutexes that are held while a thread stands at a control point. -/
def holds : Pc → List Mutex
  | .start _ _ pc =>
    match pc with
    | .lock | .join _ | .reaped | .reapedNotify => []
    | _ => [.lifecycle]
  | .stop _ _ pc =>
    match pc with
    | .notifyFirst | .notifyLifecycle | .command | .self | .waitJoining | .idleFaulted | .idleState
    | .joinedState | .joined => [.lifecycle]
    | _ => []
  | .bias _ pc =>
    match pc with
    | .record => [.command]
    | .check | .send _ | .restart | .reset => [.command, .record]
    | _ => []
  | .waitForFirstSample _ pc =>
    match pc with
    | .waiting _ | .final _ => [.data]
    | _ => []
  | .run pc =>
    match pc with
    | .send _ => [.command]
    | .backoffWait _ | .backoffDone _ => [.data]
    | _ => []
  | _ => []

def isOutside : Pc → Bool
  | .outside => true
  | _ => false

def isEnded : Pc → Bool
  | .run .ended => true
  | _ => false

end Pc

/-- `Client`, its worker and `DeferredDestroyer`. -/
def program : Program Shared Pc Mutex CondVar Choice where
  instr := Pc.instr
  holds := Pc.holds
  fresh := Pc.isOutside
  ended := Pc.isEnded
  fresh_holds := by
    intro p h
    cases p <;> first | rfl | cases h

abbrev System := Sys Shared Pc Mutex

/-- A constructed client: thread 0 is the one of `DeferredDestroyer`. -/
def System.init (config : Config) : System where
  shared := { impl := .init config }
  owner _ := none
  threads t := { pc := if t = 0 then .deferred else .outside }

abbrev Input := Library.Threads.Input Choice

/-- One step of the client. -/
abbrev Step : System → Input → System → Prop := program.step

/-- The states of the client, under any configuration. -/
def System.Reachable (config : Config) (s : System) : Prop :=
  Library.Reachable Step (System.init config) s

theorem System.init_consistent {config : Config} : program.Consistent (System.init config) :=
  .init (fun _ => rfl) (fun _ => rfl) fun t => by
    by_cases ht : t = 0 <;> simp [System.init, ht] <;> rfl

theorem System.Reachable.consistent {config : Config} {s : System} (h : s.Reachable config) :
    program.Consistent s :=
  Program.Consistent.reachable System.init_consistent h

end NetFT.Client
