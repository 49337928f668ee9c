/-
# NetFT.Client.Session — sessions and the worker's run, in program order.

`receive_session`, `close_session`, `finish_session` and `run`, for a worker that nobody interrupts:
what the environment does in one pass of the receive loop is a `Pass`, in one session a
`SessionInput`.  A call of `stop()` is the end of the list: the next read of `stopping_` finds it
set, and every such read precedes the effects of its pass.

`loopStep` is one pass, `receiveLoop` the loop; `Accepts` is a prefix of passes after which the
session is still open, and `receiveLoop_accepts` splits the loop there.
-/
import NetFT.Client.HandleRecord
import NetFT.Transport

namespace NetFT.Client

/-! ## Closing -/

namespace Impl

/-- `set_fault`. -/
def setFault (c : Impl) (code : FaultCode) (message : String) : Impl := c.publishFault code message

/-- `close_session`. -/
def closeSession (c : Impl) : Impl := (c.setSessionStarted false).closeTransport

/-- `finish_session`. -/
def finishSession (c : Impl) : Impl :=
  let c := { c.closeSession with workerExited := true }
  if c.faulted then c else c.setState .Stopped

end Impl

/-! ## The receive loop -/

/-- One pass of the receive loop: the clock reading of the deadline check, the call of `receive`, the
reading that dates a well-formed record, and how the callback ends if it is invoked. -/
structure Pass where
  now : TimePoint
  reception : Reception
  receivedAt : TimePoint
  result : CallbackResult := .returned
  deriving DecidableEq, Repr

structure LoopState where
  impl : Impl
  deadline : TimePoint
  receivedValidRecord : Bool

inductive LoopResult where
  | next (s : LoopState)
  | ended (c : Impl) (outcome : SessionOutcome)
  | raised (c : Impl) (what : String)

/-- The branch of the loop that handles a datagram, `size ≠ 0`. -/
def datagramStep (s : LoopState) (data : List UInt8) (receivedAt : TimePoint)
    (result : CallbackResult) : LoopResult :=
  match decodeRecord data with
  | .error _ =>
    let c := s.impl.countMalformed
    if c.malformedStorm then
      .ended c { result := .MalformedStorm, receivedValidRecord := s.receivedValidRecord }
    else .next { s with impl := c }
  | .ok record =>
    let c := s.impl.clearMalformed
    match checkedDeadline receivedAt c.config.receiveTimeout with
    | .error what => .raised c what
    | .ok deadline =>
      match c.handleRecord record receivedAt result with
      | (c, .error what) => .raised c what
      | (c, .ok (some outcome)) => .ended c { result := outcome, receivedValidRecord := true }
      | (c, .ok none) => .next { impl := c, deadline, receivedValidRecord := true }

/-- One pass of `while (!stopping_)` in `receive_session`. -/
def loopStep (s : LoopState) (p : Pass) : LoopResult :=
  let timedOut : LoopResult :=
    .ended s.impl.countTimeout { result := .Timeout, receivedValidRecord := s.receivedValidRecord }
  if s.deadline ≤ p.now then timedOut
  else
    match receive (Ticks.toSeconds (s.deadline - p.now)) p.reception with
    | .error what =>
      .ended s.impl
        { result := .Socket, message := what, receivedValidRecord := s.receivedValidRecord }
    | .ok [] => timedOut
    | .ok data => datagramStep s data p.receivedAt p.result

/-- The client state a pass leaves behind. -/
def LoopResult.impl : LoopResult → Impl
  | .next s => s.impl
  | .ended c _ => c
  | .raised c _ => c

def receiveLoop (s : LoopState) : List Pass → Impl × Except String SessionOutcome
  | [] => (s.impl, .ok { receivedValidRecord := s.receivedValidRecord })
  | p :: ps =>
    match loopStep s p with
    | .next s => receiveLoop s ps
    | .ended c outcome => (c, .ok outcome)
    | .raised c what => (c, .error what)

/-! ## A session -/

/-- What happens to one session: how discovery, `connect` and the sending of StartRealtime end, the
clock reading after it, the passes of the loop, and the reading before the reconnect delay. -/
structure SessionInput where
  discovery : Except String SensorConfiguration
  connect : Except String Unit := .ok ()
  send : Except String Unit := .ok ()
  openedAt : TimePoint
  passes : List Pass
  backoffAt : TimePoint := 0

/-- `configuration_for_session`; `discovery` is how `discover_sensor` ends. -/
def configurationForSession (config : Config) (discovery : Except String SensorConfiguration) :
    Except String SensorConfiguration :=
  match config.calibrationOverride with
  | some calibration => .ok { productName := "", calibration, source := .Override, revision := 1 }
  | none => discovery

namespace Impl

/-- `receive_session` up to its loop: either the session ends (or raises) there, or the loop starts. -/
def openSession (c : Impl) (input : SessionInput) : LoopResult :=
  let c := c.setState .Connecting
  if c.stopping then .ended c {}
  else
    match configurationForSession c.config input.discovery with
    | .error what => .ended c { result := .SensorConfiguration, message := what }
    | .ok configuration =>
      let c := c.applyConfiguration configuration
      match input.connect with
      | .error what => .ended c { result := .Socket, message := what }
      | .ok () =>
        let c := c.connectTransport
        match input.send with
        | .error what => .ended c { result := .Socket, message := what }
        | .ok () =>
          let c := (c.setSessionStarted true).resetSequences
          match checkedDeadline input.openedAt c.config.receiveTimeout with
          | .error what => .raised c what
          | .ok deadline => .next { impl := c, deadline, receivedValidRecord := false }

/-- `receive_session`. -/
def receiveSession (c : Impl) (input : SessionInput) : Impl × Except String SessionOutcome :=
  match c.openSession input with
  | .next s => receiveLoop s input.passes
  | .ended c outcome => (c, .ok outcome)
  | .raised c what => (c, .error what)

/-! ## The run -/

/-- The loop of `run`, with the current reconnect delay; it returns the delays it awaited. -/
def runLoop (c : Impl) (backoff : Seconds) : List SessionInput → Impl × List Seconds
  | [] => (c, [])
  | input :: inputs =>
    if c.stopping || c.faulted then (c, [])
    else
      match c.receiveSession input with
      | (c, .error what) => (if c.stopping then c else c.setFault .Socket what, [])
      | (c, .ok outcome) =>
        let c := c.closeSession
        let outcome := outcome.withMessage
        if outcome.result ≠ .Stopped ∧ c.config.recoveryPolicy = .FailStop then
          (c.setFault (faultFor outcome.result) outcome.message, [])
        else if outcome.result = .Stopped ∨ c.stopping then (c, [])
        else
          let backoff :=
            if outcome.receivedValidRecord then c.config.reconnectInitialDelay else backoff
          let c := c.enterBackoff outcome.message
          match checkedDeadline input.backoffAt backoff with
          | .error what => (if c.stopping then c else c.setFault .Socket what, [])
          | .ok _ =>
            let (c, awaited) := runLoop c (min (backoff * 2) c.config.reconnectMaxDelay) inputs
            (c, backoff :: awaited)

/-- `run`. -/
def run (c : Impl) (inputs : List SessionInput) : Impl :=
  (c.runLoop c.config.reconnectInitialDelay inputs).1.finishSession

end Impl

/-! ## Prefixes of a session -/

/-- The passes `ps` lead from `s` to `s'` without ending the session. -/
inductive Accepts : LoopState → List Pass → LoopState → Prop where
  | nil (s : LoopState) : Accepts s [] s
  | cons {s s₁ s' : LoopState} {p : Pass} {ps : List Pass} :
      loopStep s p = .next s₁ → Accepts s₁ ps s' → Accepts s (p :: ps) s'

theorem receiveLoop_accepts {s s' : LoopState} {ps : List Pass} (h : Accepts s ps s')
    (rest : List Pass) : receiveLoop s (ps ++ rest) = receiveLoop s' rest := by
  induction h with
  | nil s => rfl
  | cons hstep _ ih => simp only [List.cons_append, receiveLoop, hstep, ih]

/-- A loop that does not end in `stop()` ended or raised in the pass after an accepted prefix. -/
theorem receiveLoop_cases {s : LoopState} {ps : List Pass} {c : Impl}
    {outcome : Except String SessionOutcome} (h : receiveLoop s ps = (c, outcome)) :
    (∃ s', Accepts s ps s' ∧ c = s'.impl ∧
      outcome = .ok { receivedValidRecord := s'.receivedValidRecord }) ∨
    ∃ pre p rest s', ps = pre ++ p :: rest ∧ Accepts s pre s' ∧
      ((∃ o, outcome = .ok o ∧ loopStep s' p = .ended c o) ∨
        ∃ what, outcome = .error what ∧ loopStep s' p = .raised c what) := by
  induction ps generalizing s with
  | nil =>
    simp only [receiveLoop, Prod.mk.injEq] at h
    exact .inl ⟨s, .nil s, h.1.symm, h.2.symm⟩
  | cons p ps ih =>
    simp only [receiveLoop] at h
    split at h
    · rename_i s₁ hstep
      rcases ih h with ⟨s', hacc, hc⟩ | ⟨pre, q, rest, s', rfl, hacc, hlast⟩
      · exact .inl ⟨s', .cons hstep hacc, hc⟩
      · exact .inr ⟨p :: pre, q, rest, s', rfl, .cons hstep hacc, hlast⟩
    · rename_i c' o hstep
      simp only [Prod.mk.injEq] at h
      obtain ⟨rfl, rfl⟩ := h
      exact .inr ⟨[], p, ps, s, rfl, .nil s, .inl ⟨o, rfl, hstep⟩⟩
    · rename_i c' what hstep
      simp only [Prod.mk.injEq] at h
      obtain ⟨rfl, rfl⟩ := h
      exact .inr ⟨[], p, ps, s, rfl, .nil s, .inr ⟨what, rfl, hstep⟩⟩

/-- The pass `p`, entered in state `s` after the passes `pre`, belongs to the session. -/
structure InSession (c : Impl) (input : SessionInput) (pre : List Pass) (s : LoopState) (p : Pass) :
    Prop where
  passes : ∃ rest, input.passes = pre ++ p :: rest
  reached : ∃ s₀, c.openSession input = .next s₀ ∧ Accepts s₀ pre s

/-- How a session ends: before its loop, by a stop request after its last pass, or in a pass. -/
theorem receiveSession_cases {c c' : Impl} {input : SessionInput}
    {outcome : Except String SessionOutcome} (h : c.receiveSession input = (c', outcome)) :
    ((∃ o, outcome = .ok o ∧ c.openSession input = .ended c' o) ∨
      ∃ what, outcome = .error what ∧ c.openSession input = .raised c' what) ∨
    (∃ s₀ s, c.openSession input = .next s₀ ∧ Accepts s₀ input.passes s ∧ c' = s.impl ∧
      outcome = .ok { receivedValidRecord := s.receivedValidRecord }) ∨
    ∃ pre s p, InSession c input pre s p ∧
      ((∃ o, outcome = .ok o ∧ loopStep s p = .ended c' o) ∨
        ∃ what, outcome = .error what ∧ loopStep s p = .raised c' what) := by
  unfold Impl.receiveSession at h
  cases hopen : c.openSession input with
  | ended c₁ o =>
    simp only [hopen, Prod.mk.injEq] at h
    obtain ⟨rfl, rfl⟩ := h
    exact .inl (.inl ⟨o, rfl, rfl⟩)
  | raised c₁ what =>
    simp only [hopen, Prod.mk.injEq] at h
    obtain ⟨rfl, rfl⟩ := h
    exact .inl (.inr ⟨what, rfl, rfl⟩)
  | next s₀ =>
    simp only [hopen] at h
    rcases receiveLoop_cases h with ⟨s, hacc, hc, ho⟩ | ⟨pre, p, rest, s, hpasses, hacc, hlast⟩
    · exact .inr (.inl ⟨s₀, s, rfl, hacc, hc, ho⟩)
    · exact .inr (.inr ⟨pre, s, p, ⟨⟨rest, hpasses⟩, s₀, hopen, hacc⟩, hlast⟩)

theorem InSession.of_single {c : Impl} {input : SessionInput} {pre : List Pass} {s : LoopState}
    {p p₀ : Pass} (h : InSession c input pre s p) (hpasses : input.passes = [p₀]) : pre = [] ∧ p = p₀ := by
  obtain ⟨rest, hrest⟩ := h.passes
  rw [hpasses] at hrest
  cases pre with
  | nil =>
    simp only [List.nil_append, List.cons.injEq] at hrest
    exact ⟨rfl, hrest.1.symm⟩
  | cons q pre => simp at hrest

/-! ## What a session leaves alone -/

/-- Nothing in a session touches the configuration, the callback, the stop request or the latch. -/
structure SameControl (c c' : Impl) : Prop where
  config : c'.config = c.config
  callback : c'.callback = c.callback
  stopping : c'.stopping = c.stopping
  faultLatch : c'.faultLatch = c.faultLatch

namespace SameControl

theorem refl (c : Impl) : SameControl c c := ⟨rfl, rfl, rfl, rfl⟩

theorem trans {c c' c'' : Impl} (h : SameControl c c') (h' : SameControl c' c'') :
    SameControl c c'' :=
  ⟨h'.config.trans h.config, h'.callback.trans h.callback, h'.stopping.trans h.stopping,
    h'.faultLatch.trans h.faultLatch⟩

theorem applyConfiguration (c : Impl) (configuration : SensorConfiguration) :
    SameControl c (c.applyConfiguration configuration) := by
  obtain ⟨_, _, h⟩ := c.applyConfiguration_frame configuration
  rw [h]
  exact ⟨rfl, rfl, rfl, rfl⟩

theorem handleRecord (c : Impl) (record : RawRecord) (receivedAt : TimePoint)
    (result : CallbackResult) : SameControl c (c.handleRecord record receivedAt result).1 := by
  obtain ⟨_, _, _, _, _, _, _, _, _, h⟩ := c.handleRecord_frame record receivedAt result
  rw [h]
  exact ⟨rfl, rfl, rfl, rfl⟩

theorem datagramStep (s : LoopState) (data : List UInt8) (receivedAt : TimePoint)
    (result : CallbackResult) : SameControl s.impl (datagramStep s data receivedAt result).impl := by
  unfold Client.datagramStep
  simp only
  split
  · split_ifs <;> exact ⟨rfl, rfl, rfl, rfl⟩
  · rename_i record _
    split
    · exact ⟨rfl, rfl, rfl, rfl⟩
    have h := handleRecord s.impl.clearMalformed record receivedAt result
    split <;> rename_i heq <;> rw [heq] at h <;> exact ⟨h.config, h.callback, h.stopping, h.faultLatch⟩

theorem loopStep (s : LoopState) (p : Pass) : SameControl s.impl (loopStep s p).impl := by
  unfold Client.loopStep
  simp only
  split_ifs
  · exact ⟨rfl, rfl, rfl, rfl⟩
  split
  · exact refl s.impl
  · exact ⟨rfl, rfl, rfl, rfl⟩
  · exact datagramStep s _ p.receivedAt p.result

theorem accepts {s s' : LoopState} {ps : List Pass} (h : Accepts s ps s') :
    SameControl s.impl s'.impl := by
  induction h with
  | nil s => exact refl s.impl
  | @cons s s₁ s' p ps hstep _ ih =>
    have hloop := loopStep s p
    rw [hstep] at hloop
    exact hloop.trans ih

theorem openSession (c : Impl) (input : SessionInput) :
    SameControl c (c.openSession input).impl := by
  unfold Impl.openSession
  simp only
  split_ifs
  · exact ⟨rfl, rfl, rfl, rfl⟩
  split
  · exact ⟨rfl, rfl, rfl, rfl⟩
  rename_i configuration _
  have h := applyConfiguration (c.setState .Connecting) configuration
  repeat' split
  all_goals exact ⟨h.config, h.callback, h.stopping, h.faultLatch⟩

theorem receiveSession (c : Impl) (input : SessionInput) :
    SameControl c (c.receiveSession input).1 := by
  have hopen := openSession c input
  unfold Impl.receiveSession
  cases hcase : c.openSession input with
  | ended c' o => rw [hcase] at hopen; exact hopen
  | raised c' what => rw [hcase] at hopen; exact hopen
  | next s =>
    rw [hcase] at hopen
    refine hopen.trans ?_
    change SameControl s.impl (receiveLoop s input.passes).1
    cases hloop : receiveLoop s input.passes with
    | mk c' outcome =>
      rcases receiveLoop_cases hloop with ⟨s', hacc, rfl, -⟩ | ⟨pre, p, rest, s', -, hacc, hlast⟩
      · exact accepts hacc
      · have hstep := loopStep s' p
        rcases hlast with ⟨_, -, heq⟩ | ⟨_, -, heq⟩ <;> rw [heq] at hstep <;>
          exact (accepts hacc).trans hstep

end SameControl

/-! ## A FailStop run -/

@[simp] theorem SessionOutcome.withMessage_result (outcome : SessionOutcome) :
    outcome.withMessage.result = outcome.result := by
  unfold SessionOutcome.withMessage
  split_ifs <;> rfl

theorem Impl.finishSession_faultLatch (c : Impl) : c.finishSession.faultLatch = c.faultLatch := by
  unfold finishSession
  simp only
  split_ifs <;> rfl

/-- **A FailStop run is one session**, and the code it latches is that of the session's outcome. -/
theorem Impl.run_failStop {c : Impl} (hpolicy : c.config.recoveryPolicy = .FailStop)
    (hstopping : c.stopping = false) (hfault : c.faultLatch = .None) {input : SessionInput}
    {outcome : SessionOutcome} (h : (c.receiveSession input).2 = .ok outcome)
    (later : List SessionInput) :
    (c.run (input :: later)).faultLatch = faultFor outcome.result := by
  have hsame := SameControl.receiveSession c input
  cases hcase : c.receiveSession input with
  | mk c' ended =>
    rw [hcase] at h hsame
    simp only at h hsame
    subst h
    have hpolicy' : c'.closeSession.config.recoveryPolicy = .FailStop := by
      rw [← hpolicy, ← hsame.config]
      rfl
    have hfault' : c'.closeSession.faultLatch = .None := by
      rw [← hfault, ← hsame.faultLatch]
      rfl
    rw [run, finishSession_faultLatch, runLoop]
    simp only [hstopping, faulted, hfault, bne_self_eq_false, Bool.or_self, Bool.false_eq_true,
      if_false, hcase, SessionOutcome.withMessage_result, hpolicy', and_true]
    by_cases hresult : outcome.result = .Stopped
    · simp [hresult, hfault', faultFor]
    · simp [hresult, setFault, publishFault, hfault']

end NetFT.Client
