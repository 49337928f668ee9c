/-
# NetFT.Client.FailStop — the first fatal cause is latched, and then nothing happens.

A fault travels from `handle_record` or a failed call of the transport through the outcome of the
session and `run` to the latch.  `Pc.fatal` is the class of the event that a thread is at, `Pc.doom` the
class that a thread which has decided it carries to `publish`.

* `Served.doom_step`: what a step does to the class that is carried, for every thread.
* `Silent`: what stays as it is once a fault is latched.
* **`failStop_latches`**: the first fatal event is latched under its class (`first`, `latches`), the run
  ends (`ends`), and then the client is silent until a `start` opens the latch again (`silent`).
-/
import NetFT.Client.Calibrated
import NetFT.Client.Latch

namespace NetFT.Client

set_option autoImplicit false

open Library (Runs restrict)
open Library.Threads (Tid Effect Program)

/-! ## Fatal events -/

/-- The class of an outcome other than `Stopped`. -/
def SessionResult.code (result : SessionResult) : Option FaultCode :=
  if result = .Stopped then none else some (faultFor result)

/-- The class of a record that is fatal whatever its callback does. -/
def Impl.recordFault (c : Impl) (record : RawRecord) : Option FaultCode :=
  if classifyStatus record.status = .Error then some .SeriousStatus
  else
    match (c.ftSequence.observe record.ftSequence).1 with
    | .Stall => some .FtStall
    | .Backward => some .FtBackward
    | _ => none

namespace RunPc

/-- The class of the event that the worker is at.  `receive_session` drops some of them for a stop
request. -/
def fatal (c : Impl) : RunPc → Option FaultCode
  | .discoverFailed _ _ => if c.stopping then none else some .SensorConfiguration
  | .sendFailed _ _ | .receiveFailed _ _ | .raised _ => if c.stopping then none else some .Socket
  | .timeout _ => if c.stopping then none else some .Timeout
  | .malformed _ =>
    if Impl.kMalformedStormThreshold ≤ c.consecutiveMalformed + 1 then some .MalformedStorm else none
  | .observe _ record _ => c.recordFault record
  | .callbackThrew k _ => if k.outcome = none then some .Callback else none
  | _ => none

/-- The class that the worker carries to the latch. -/
def doom : RunPc → Option FaultCode
  | .invoke k | .inCallback k | .callbackThrew k _ | .deliver k | .deliveredFirst k
  | .deliveredLifecycle k => k.outcome.bind SessionResult.code
  | .close _ outcome | .settle _ outcome => outcome.result.code
  | .publish code _ => some code
  | _ => none

def publishes : RunPc → Bool
  | .publish _ _ => true
  | _ => false

end RunPc

def Ctx.doom : Ctx → Option FaultCode
  | .callback k => k.outcome.bind SessionResult.code
  | .outside | .deferred => none

namespace Pc

def fatal (c : Impl) : Pc → Option FaultCode
  | .run pc => pc.fatal c
  | _ => none

def doom : Pc → Option FaultCode
  | .outside | .deferred => none
  | .start ctx _ _ | .stop ctx _ _ | .bias ctx _ | .waitForFirstSample ctx _ | .query ctx _
  | .destroy ctx _ => ctx.doom
  | .run pc => pc.doom

def publishes : Pc → Bool
  | .run pc => pc.publishes
  | _ => false

end Pc

/-! ## What a step does to it -/

section

variable {p q : Pc} {pc pc' : RunPc} {c c' : Impl} {wire wire' : Wire} {t : Tid} {choice : Choice}
  {s : Shared} {e : Effect Shared Pc}

theorem SessionResult.code_eq_none_iff {result : SessionResult} :
    result.code = none ↔ result = .Stopped := by
  unfold code
  split_ifs with h <;> simp [h]

/-- A class that is carried is that of a call, too. -/
theorem Pc.doom_of_call (h : p.isCall = true) : p.doom = p.ctx.doom := by
  cases p with
  | run pc =>
    cases pc with
    | inCallback k => rfl
    | _ => cases h
  | _ => rfl

/-- Under FailStop the outcome of a record is its own class, whether or not it is delivered. -/
theorem Impl.prepareRecord_doom (hpolicy : c.config.recoveryPolicy = .FailStop) {record : RawRecord}
    (hconfigured : c.Configured) (hrange : record.InRange) {receivedAt : TimePoint} {prepared : Prepared}
    (h : c.prepareRecord record receivedAt = (c', prepared)) :
    ∃ outcome : Option SessionResult, outcome.bind SessionResult.code = c.recordFault record ∧
      (prepared = .done outcome ∨ ∃ sample, prepared = .invoke sample outcome) := by
  obtain ⟨configuration, hsome, hvalid⟩ := hconfigured
  cases hobserved : c.observeRecord record receivedAt with
  | mk c₁ observed =>
    cases observed with
    | error what => simp [observeRecord, hsome] at hobserved
    | ok observation =>
      have houtcome := observeRecord_outcome hobserved
      have hconfiguration : observation.configuration = configuration := by
        simp only [observeRecord, hsome, Prod.mk.injEq, Except.ok.injEq] at hobserved
        rw [← hobserved.2]
      refine ⟨observation.outcome, ?_, ?_⟩
      · rw [houtcome, verdict_failStop hpolicy]
        unfold recordFault
        cases classifyStatus record.status <;>
          cases (c.ftSequence.observe record.ftSequence).1 <;> rfl
      · simp only [prepareRecord, hobserved] at h
        have hfinite := sampleOf_isFinite hrange (hconfiguration ▸ hvalid) receivedAt
        cases hdeliver : observation.deliver <;> rw [hdeliver] at h
        · cases h
          exact .inl rfl
        · rw [hfinite] at h
          cases h
          exact .inr ⟨_, rfl⟩

theorem RunPc.afterRecord_doom (l : Loop) (outcome : Option SessionResult) :
    (afterRecord l outcome).doom = outcome.bind SessionResult.code := by
  cases outcome <;> rfl

/-- A stop request turns the end of a session into `Stopped`. -/
theorem RunPc.endSession_doom (l : Loop) (result : SessionResult) (message : String) :
    (endSession c l result message).doom = if c.stopping then none else result.code := by
  unfold endSession doom
  cases c.stopping <;> rfl

/-- **A step of the worker carries a class on, or takes up that of the event it is at.** -/
theorem RunPc.step_doom (h : pc.step choice c wire = some (c', wire', pc'))
    (hpolicy : c.config.recoveryPolicy = .FailStop) (hpc : pc.Calibrated c)
    (hpublish : pc.publishes = false) : pc'.doom = pc.doom.or (pc.fatal c) := by
  cases pc with
  | publish code message => cases hpublish
  | discoverFailed b what | sendFailed b what | receiveFailed l what | timeout l =>
    cases h
    exact endSession_doom _ _ _
  | raised what =>
    cases h
    change RunPc.doom (if c.stopping then _ else _) = if c.stopping then none else some .Socket
    split_ifs <;> rfl
  | malformed l =>
    cases h
    change RunPc.doom (if c.countMalformed.malformedStorm then _ else _) =
      if Impl.kMalformedStormThreshold ≤ c.consecutiveMalformed + 1 then _ else none
    have hstorm : c.countMalformed.malformedStorm = true ↔
        Impl.kMalformedStormThreshold ≤ c.consecutiveMalformed + 1 := decide_eq_true_iff
    by_cases hcount : Impl.kMalformedStormThreshold ≤ c.consecutiveMalformed + 1
    · rw [if_pos hcount, if_pos (hstorm.mpr hcount)]
      rfl
    · rw [if_neg hcount, if_neg (hstorm.not.mpr hcount)]
      rfl
  | observe l record receivedAt =>
    simp only [step, stepOpen, stepLoop] at h
    cases hprepared : c.prepareRecord record receivedAt with
    | mk c₁ prepared =>
      rw [hprepared] at h
      obtain ⟨outcome, hfault, rfl | ⟨sample, rfl⟩⟩ :=
        c.prepareRecord_doom hpolicy hpc.1 hpc.2 hprepared
      · cases h
        rw [afterRecord_doom, hfault]
        rfl
      · cases h
        exact hfault
  | callbackThrew k what =>
    cases h
    change (afterRecord k.loop (callbackFailureOutcome c.config k.outcome)).doom =
      (k.outcome.bind SessionResult.code).or (if k.outcome = none then some .Callback else none)
    rw [afterRecord_doom]
    cases k.outcome with
    | none => simp [callbackFailureOutcome, hpolicy, SessionResult.code, faultFor]
    | some result => simp [callbackFailureOutcome]
  | settle b outcome =>
    cases h
    rw [SessionOutcome.withMessage_result]
    change _ = (SessionResult.code outcome.result).or none
    unfold SessionResult.code
    by_cases hstopped : outcome.result = .Stopped
    · simp [hstopped, doom]
    · simp [hstopped, hpolicy, doom]
  | check l | received l data =>
    have hstopped : (endSession c l .Stopped).doom = none := by
      rw [endSession_doom]
      split_ifs <;> rfl
    cases h
    split_ifs <;> first
      | exact hstopped
      | rfl
      | split <;> rfl
  | invoke k =>
    cases h
    split_ifs <;> exact (Option.or_none).symm
  | inCallback k =>
    cases choice with
    | returned | threw what =>
      cases h
      exact (Option.or_none).symm
    | _ => cases h
  | deliver k | close b outcome =>
    cases h
    exact (Option.or_none).symm
  | discover b =>
    cases choice with
    | configuration configuration | fail what =>
      simp only [step, stepOpen, Option.map_some, Option.some_or, Option.some.injEq] at h
      split at h <;> cases h <;> rfl
    | _ => cases h
  | connect b =>
    cases choice with
    | proceed | fail what =>
      cases h
      rfl
    | _ => cases h
  | send b =>
    simp only [step, stepOpen] at h
    split at h <;> cases h <;> rfl
  | deadline b | wellFormed l record | backoffLock b =>
    cases choice with
    | reading now =>
      simp only [step, stepOpen, stepLoop, stepClose, Option.none_or, Option.map_none] at h
      split at h <;> cases h <;> rfl
    | _ => cases h
  | clock l =>
    cases choice with
    | reading now =>
      cases h
      split_ifs
      · rfl
      · split <;> rfl
    | _ => cases h
  | receive l =>
    cases choice with
    | received data | fail what =>
      cases h
      rfl
    | _ => cases h
  | loop b | stopping1 b | stopping2 b | command b | finishFaulted =>
    cases h
    split_ifs <;> rfl
  | connecting b | apply b configuration | reset b | enterBackoff b message | backoffDone b
  | finishClose | finishExited | finishState =>
    cases h
    rfl
  | deliveredFirst k | deliveredLifecycle k | backoffWait b | publishNotifyFirst | publishNotifyLifecycle
  | finishNotifyFirst | finishNotifyLifecycle | ended => cases h

/-- The same for an action of any thread. -/
theorem action_doom (h : p.action t choice s = some e)
    (hpolicy : s.impl.config.recoveryPolicy = .FailStop) (hp : p.Calibrated s.impl)
    (hpublish : p.publishes = false) : e.next.doom = p.doom.or (p.fatal s.impl) := by
  by_cases hrun : ∃ pc, p = .run pc
  · obtain ⟨pc, rfl⟩ := hrun
    rcases runStep_cases h with ⟨k, call, rfl, hcall⟩ | ⟨impl, sessions, next, hstep, rfl⟩
    · obtain ⟨hctx, hcalls⟩ := beginCall_ctx hcall
      rw [Pc.doom_of_call hcalls, hctx]
      exact (Option.or_none).symm
    · exact RunPc.step_doom hstep hpolicy hp hpublish
  · have hnot : ∀ pc, p ≠ .run pc := fun pc heq => hrun ⟨pc, heq⟩
    obtain ⟨hctx, hcalls⟩ := action_ctx h hnot
    rw [Pc.doom_of_call hcalls, hctx]
    cases p with
    | run pc => exact absurd rfl (hnot pc)
    | _ => exact (Option.or_none).symm

/-- A notify, or a wait that is over, leaves the class as it is. -/
theorem passes_doom (h : program.Passes p q s) : q.doom = p.doom := by
  cases goesOn_of_passes h with
  | deliveredLifecycle k => exact RunPc.afterRecord_doom _ _
  | _ => rfl

/-- The worker acts where an event is. -/
theorem Pc.instr_of_fatal (h : p.fatal c ≠ none) : ∃ takes f, p.instr = .act takes f := by
  cases p with
  | run pc => cases pc <;> first | exact ⟨_, _, rfl⟩ | exact absurd rfl h
  | _ => exact absurd rfl h

/-- Who carries a class is the worker, and no fault is latched yet. -/
theorem Pc.unfaulted_of_doom (h : p.doom ≠ none) : p.unfaulted = true := by
  have hctx : ∀ {ctx : Ctx}, ctx.doom ≠ none → ctx.isCallback = true := fun {ctx} h => by
    cases ctx <;> first | rfl | exact absurd rfl h
  cases p with
  | run pc => cases pc <;> first | rfl | exact absurd rfl h
  | start ctx _ _ | stop ctx _ _ => exact Bool.or_eq_true_iff.mpr (.inl (hctx h))
  | bias ctx _ | waitForFirstSample ctx _ | query ctx _ | destroy ctx _ => exact hctx h
  | _ => exact absurd rfl h

end

/-! ## Deciding -/

/-- The class `code` is on its way to the latch. -/
def System.Decided (code : FaultCode) (s : System) : Prop := ∃ t, (s.threads t).pc.doom = some code

/-- No class is. -/
def System.Undecided (s : System) : Prop := ∀ t, (s.threads t).pc.doom = none

section

variable {config : Config} {s s' : System} {i : Input} {t u : Tid} {code : FaultCode}

theorem Served.step (h : Served config s) (hdiscovered : Discovered i) (hstep : Step s i s') :
    Served config s' :=
  ⟨h.override, h.runs.snoc ⟨hdiscovered, hstep⟩⟩

/-- **What a step does to the class that a thread carries.** -/
theorem Served.doom_step (h : Served config s) (hpolicy : config.recoveryPolicy = .FailStop)
    (hstep : Step s i s') (hpublish : (s.threads i.tid).pc.publishes = false) (u : Tid) :
    (s'.threads u).pc.doom =
      (s.threads u).pc.doom.or
        (if u = i.tid then (s.threads u).pc.fatal s.shared.impl else none) := by
  by_cases hact : ∃ takes f, (s.threads i.tid).pc.instr = .act takes f
  · obtain ⟨takes, f, hinstr⟩ := hact
    obtain ⟨choice, e, -, hf, -, hpc, hothers⟩ := h.reachable.consistent.step_act hstep hinstr
    obtain ⟨-, rfl⟩ := Pc.instr_act hinstr
    by_cases hu : u = i.tid
    · subst hu
      rw [hpc, if_pos rfl]
      exact action_doom hf (by rw [h.reachable.config, hpolicy]) (h.calibrated _) hpublish
    · rw [if_neg hu, Option.or_none]
      rcases hothers u hu with hsame | ⟨hfresh, hspawned⟩
      · rw [hsame]
      · rw [spawned_run hf hspawned]
        cases hpc' : (s.threads u).pc with
        | outside => rfl
        | _ => simp [hpc', program, Pc.isOutside] at hfresh
  · have hnone : (if u = i.tid then (s.threads u).pc.fatal s.shared.impl else none) = none := by
      split_ifs with hu
      · by_contra hfatal
        exact hact (hu ▸ Pc.instr_of_fatal hfatal)
      · rfl
    rw [hnone, Option.or_none]
    exact point_of_not_act (P := fun p => p.doom = (s.threads u).pc.doom) hstep hact
      (fun p q hpass hp => (passes_doom hpass).trans hp) (fun _ _ _ h => h) (fun _ _ _ h => h) rfl

/-- Nothing is latched while a class is on its way. -/
theorem System.Reachable.open_of_doom (h : s.Reachable config) (ht : (s.threads t).pc.doom ≠ none) :
    s.shared.impl.faultLatch = .None := (h.latch.2 t).unfaulted (Pc.unfaulted_of_doom ht)

/-- One thread carries a class. -/
theorem System.Reachable.doom_unique (h : s.Reachable config) (ht : (s.threads t).pc.doom ≠ none)
    (hu : (s.threads u).pc.doom ≠ none) : t = u :=
  h.owner_unique (Pc.owning_of_unfaulted (Pc.unfaulted_of_doom ht))
    (Pc.owning_of_unfaulted (Pc.unfaulted_of_doom hu))

end

/-! ## Sessions -/

/-- The worker is about to open a session. -/
def Pc.connects : Pc → Bool
  | .run (.connect _) => true
  | _ => false

section

variable {p : Pc} {pc pc' : RunPc} {c c' : Impl} {wire wire' : Wire} {t : Tid} {choice : Choice}
  {s : Shared} {e : Effect Shared Pc}

theorem Wire.attempt_tail (wire : Wire) (a : Attempt) : (wire.attempt a).tail = wire.tail := by
  cases wire <;> rfl

theorem stopStreaming_tail (c : Impl) (choice : Choice) (wire : Wire) :
    (stopStreaming c choice wire).tail = wire.tail := by
  unfold stopStreaming
  split_ifs
  · exact wire.attempt_tail _
  · rfl

theorem beginCall_sessions {ctx : Ctx} {call : Call} (h : beginCall ctx t call s = some e) :
    e.shared.sessions = s.sessions := by
  cases call <;> grind [beginCall]

theorem RunPc.step_tail (h : pc.step choice c wire = some (c', wire', pc'))
    (hconnect : ∀ b, pc ≠ .connect b) : wire'.tail = wire.tail := by
  have hattempt := wire.attempt_tail
  have hstop := stopStreaming_tail c choice wire
  cases pc with
  | connect b => exact absurd rfl (hconnect b)
  | _ =>
    simp only [step, stepOpen, stepLoop, stepClose] at h
    grind

/-- Only `connect` opens a session. -/
theorem action_tail (h : p.action t choice s = some e) (hconnect : p.connects = false) :
    e.shared.sessions.tail = s.sessions.tail := by
  have hattempt := s.sessions.attempt_tail
  have hstop := stopStreaming_tail s.impl choice s.sessions
  have hleave : (s.leave t).sessions = s.sessions := rfl
  cases p with
  | start ctx callback pc => cases pc <;> simp only [Pc.action, startStep] at h <;> grind
  | stop ctx caller pc =>
    cases pc <;> cases caller <;> simp only [Pc.action, stopStep] at h <;> grind
  | bias ctx pc => cases pc <;> simp only [Pc.action, biasStep] at h <;> grind
  | waitForFirstSample ctx pc => cases pc <;> simp only [Pc.action, waitStep] at h <;> grind
  | query ctx q => cases q <;> cases h <;> rfl
  | destroy ctx pc => cases pc <;> simp only [Pc.action, destroyStep] at h <;> grind
  | run pc =>
    rcases runStep_cases h with ⟨k, call, -, hcall⟩ | ⟨impl, sessions, next, hstep, rfl⟩
    · rw [beginCall_sessions hcall]
    · refine RunPc.step_tail hstep ?_
      rintro b rfl
      cases hconnect
  | outside =>
    simp only [Pc.action, outsideStep] at h
    split at h
    · rw [beginCall_sessions h]
    · cases h
  | deferred =>
    simp only [Pc.action, deferredStep] at h
    split_ifs at h
    cases h
    rfl

end

theorem Pc.eq_connect {p : Pc} (h : p.connects = true) : ∃ b, p = .run (.connect b) := by
  cases p with
  | run pc =>
    cases pc with
    | connect b => exact ⟨b, rfl⟩
    | _ => cases h
  | _ => cases h

section

variable {config : Config} {s s' : System} {i : Input} {t u : Tid} {code : FaultCode}

theorem System.Reachable.tail_step (h : s.Reachable config) (hstep : Step s i s')
    (hconnect : (s.threads i.tid).pc.connects = false) :
    s'.shared.sessions.tail = s.shared.sessions.tail := by
  by_cases hact : ∃ takes f, (s.threads i.tid).pc.instr = .act takes f
  · obtain ⟨takes, f, hinstr⟩ := hact
    obtain ⟨choice, e, -, hf, hshared, -⟩ := h.consistent.step_act hstep hinstr
    obtain ⟨-, rfl⟩ := Pc.instr_act hinstr
    rw [hshared]
    exact action_tail hf hconnect
  · rw [(shared_of_not_act hstep hact).2]

/-- The worker that opens a session carries no class. -/
theorem System.Reachable.tail_of_decided (h : s.Reachable config) (hstep : Step s i s')
    (hdecided : s.Decided code) : s'.shared.sessions.tail = s.shared.sessions.tail := by
  obtain ⟨t, ht⟩ := hdecided
  refine h.tail_step hstep ?_
  by_contra hconnect
  obtain ⟨b, hpc⟩ := Pc.eq_connect (by simpa using hconnect)
  obtain rfl : t = i.tid :=
    h.owner_unique (Pc.owning_of_unfaulted (Pc.unfaulted_of_doom (by simp [ht]))) (by rw [hpc]; rfl)
  rw [hpc] at ht
  cases ht

end

/-! ## From the event to the latch -/

/-- A `start` that fails publishes the fault of the run before it again. -/
def Pc.republishes : Pc → Bool
  | .start _ _ (.rollbackPublish _) => true
  | _ => false

section

variable {config : Config} {s s' : System} {i : Input} {t u : Tid} {code : FaultCode}

theorem Pc.eq_publish {p : Pc} (h : p.publishes = true) :
    ∃ code message, p = .run (.publish code message) := by
  cases p with
  | run pc =>
    cases pc with
    | publish code message => exact ⟨code, message, rfl⟩
    | _ => cases h
  | _ => cases h

/-- What is published is latched. -/
theorem System.Reachable.publish_step (h : s.Reachable config) (hstep : Step s i s') {message : String}
    (hpc : (s.threads i.tid).pc = .run (.publish code message)) :
    s'.shared.impl.faultLatch = code := by
  have hopen : s.shared.impl.faultLatch = .None :=
    h.open_of_doom (t := i.tid) (by rw [hpc]; simp [Pc.doom, RunPc.doom])
  obtain ⟨choice, e, -, hf, hshared, -⟩ := h.consistent.step_act hstep (by rw [hpc]; rfl)
  cases hf
  rw [hshared]
  change (s.shared.impl.publishFault code message).faultLatch = code
  rw [Impl.publishFault, if_pos hopen]

/-- Nothing else latches a fault. -/
theorem System.Reachable.open_step (h : s.Reachable config) (hstep : Step s i s')
    (hopen : s.shared.impl.faultLatch = .None) (hpublish : (s.threads i.tid).pc.publishes = false)
    (hrepublish : (s.threads i.tid).pc.republishes = false) : s'.shared.impl.faultLatch = .None := by
  by_cases hact : ∃ takes f, (s.threads i.tid).pc.instr = .act takes f
  · obtain ⟨takes, f, hinstr⟩ := hact
    obtain ⟨choice, e, -, hf, hshared, -⟩ := h.consistent.step_act hstep hinstr
    obtain ⟨-, rfl⟩ := Pc.instr_act hinstr
    rw [hshared]
    cases hlatching : (s.threads i.tid).pc.latching with
    | false => rw [action_faultLatch hf hlatching, hopen]
    | true =>
      generalize (s.threads i.tid).pc = p at hf hlatching hpublish hrepublish
      cases p with
      | start ctx callback pc =>
        cases pc with
        | data saved | rollbackReset saved =>
          cases hf
          rfl
        | rollbackPublish saved => cases hrepublish
        | _ => cases hlatching
      | run pc =>
        cases pc with
        | publish code message => cases hpublish
        | _ => cases hlatching
      | _ => cases hlatching
  · rw [(shared_of_not_act hstep hact).1, hopen]

/-- A step on the way to the latch. -/
theorem Served.decided_step (h : Served config s) (hpolicy : config.recoveryPolicy = .FailStop)
    (hstep : Step s i s') (hdecided : s.Decided code) :
    s'.Decided code ∨ s'.shared.impl.faultLatch = code := by
  obtain ⟨t, ht⟩ := hdecided
  cases hpublish : (s.threads i.tid).pc.publishes with
  | false => exact .inl ⟨t, by rw [h.doom_step hpolicy hstep hpublish t, ht, Option.some_or]⟩
  | true =>
    obtain ⟨published, message, hpc⟩ := Pc.eq_publish hpublish
    have hdoom : (s.threads i.tid).pc.doom = some published := by rw [hpc]; rfl
    obtain rfl := h.reachable.doom_unique (t := t) (u := i.tid) (by simp [ht]) (by simp [hdoom])
    obtain rfl : published = code := by simpa [ht] using hdoom.symm
    exact .inr (h.reachable.publish_step hstep hpc)

/-- A class comes from the event that a thread is at. -/
theorem Served.undecided_step (h : Served config s) (hpolicy : config.recoveryPolicy = .FailStop)
    (hstep : Step s i s') (hundecided : s.Undecided) :
    (∀ code, (s.threads i.tid).pc.fatal s.shared.impl = some code → s'.Decided code) ∧
      ((s.threads i.tid).pc.fatal s.shared.impl = none → s'.Undecided) ∧
      (s.threads i.tid).pc.publishes = false := by
  have hpublish : (s.threads i.tid).pc.publishes = false := by
    by_contra hpublish
    obtain ⟨published, message, hpc⟩ := Pc.eq_publish (by simpa using hpublish)
    have hnone := hundecided i.tid
    rw [hpc] at hnone
    cases hnone
  have hdoom := h.doom_step hpolicy hstep hpublish
  refine ⟨fun code hfatal => ⟨i.tid, ?_⟩, fun hfatal u => ?_, hpublish⟩
  · rw [hdoom, hundecided, if_pos rfl, hfatal]
    rfl
  · rw [hdoom, hundecided]
    split_ifs with hu
    · rw [hu, hfatal]
      rfl
    · rfl

end

/-! ## Runs up to the latch -/

/-- No fault is latched, and none is put back. -/
def Unlatched (s : System) (i : Input) : Prop :=
  Discovered i ∧ s.shared.impl.faultLatch = .None ∧ (s.threads i.tid).pc.republishes = false

/-- In the step by `i` from `s₁` to `s₂`, `code` is the class of the first fatal event after `s`; it has
been on its way from there up to the last step before `s'`. -/
structure FirstFatal (s : System) (is : List Input) (s' : System) (code : FaultCode) (js : List Input)
    (i : Input) (ks : List Input) (s₁ s₂ : System) : Prop where
  inputs : is = js ++ i :: ks
  before : Runs (restrict Step fun s _ => s.Undecided) s js s₁
  undecided : s₁.Undecided
  step : Step s₁ i s₂
  fatal : (s₁.threads i.tid).pc.fatal s₁.shared.impl = some code
  after : Runs (restrict Step fun s _ => s.Decided code) s₂ ks s'
  tail : s'.shared.sessions.tail = s₂.shared.sessions.tail

section

variable {config : Config} {s s₁ s₂ s' : System} {is js ks : List Input} {i : Input} {code : FaultCode}

theorem RunPc.fatal_ne {pc : RunPc} {c : Impl} (h : pc.fatal c = some code) : code ≠ .None := by
  cases pc with
  | discoverFailed | sendFailed | receiveFailed | raised | timeout | malformed | callbackThrew =>
    simp only [fatal] at h
    split_ifs at h
    cases h
    simp
  | observe l record receivedAt =>
    simp only [fatal, Impl.recordFault] at h
    split at h
    · cases h
      simp
    · split at h <;> cases h <;> simp
  | _ => cases h

theorem Pc.fatal_ne {p : Pc} {c : Impl} (h : p.fatal c = some code) : code ≠ .None := by
  cases p with
  | run pc => exact RunPc.fatal_ne h
  | _ => cases h

/-- A run up to the latch: nothing fatal has happened, or the first fatal event is on its way or
latched. -/
theorem firstFatal_of_runs (h : Served config s) (hpolicy : config.recoveryPolicy = .FailStop)
    (hundecided : s.Undecided) (hopen : s.shared.impl.faultLatch = .None)
    (hruns : Runs (restrict Step Unlatched) s is s') :
    Served config s' ∧
      (Runs (restrict Step fun s _ => s.Undecided) s is s' ∧ s'.Undecided ∧
          s'.shared.impl.faultLatch = .None ∨
        ∃ code js i ks s₁ s₂, FirstFatal s is s' code js i ks s₁ s₂ ∧ code ≠ .None ∧
          (s'.Decided code ∨ s'.shared.impl.faultLatch = code)) := by
  refine Runs.snoc_induction (motive := fun is s' => Served config s' ∧
    (Runs (restrict Step fun s _ => s.Undecided) s is s' ∧ s'.Undecided ∧
        s'.shared.impl.faultLatch = .None ∨
      ∃ code js i ks s₁ s₂, FirstFatal s is s' code js i ks s₁ s₂ ∧ code ≠ .None ∧
        (s'.Decided code ∨ s'.shared.impl.faultLatch = code)))
    ⟨h, .inl ⟨.nil s, hundecided, hopen⟩⟩ ?_ hruns
  rintro is i s' s'' - ⟨hserved, hcases⟩ ⟨⟨hdiscovered, hnone, hrepublish⟩, hstep⟩
  refine ⟨hserved.step hdiscovered hstep, ?_⟩
  rcases hcases with ⟨hbefore, hundecided', -⟩ | ⟨code, js, j, ks, s₁, s₂, hfirst, hne, hpoint⟩
  · obtain ⟨hsome, hquiet, hpublish⟩ := hserved.undecided_step hpolicy hstep hundecided'
    cases hfatal : (s'.threads i.tid).pc.fatal s'.shared.impl with
    | none =>
      exact .inl ⟨hbefore.append (.single ⟨hundecided', hstep⟩), hquiet hfatal,
        hserved.reachable.open_step hstep hnone hpublish hrepublish⟩
    | some code =>
      exact .inr ⟨code, is, i, [], s', s'',
        ⟨rfl, hbefore, hundecided', hstep, hfatal, .nil s'', rfl⟩, Pc.fatal_ne hfatal,
        .inl (hsome code hfatal)⟩
  · -- a latched fault would have ended the run
    have hdecided : s'.Decided code := hpoint.resolve_right fun hlatched => hne (hlatched ▸ hnone)
    refine .inr ⟨code, js, j, ks ++ [i], s₁, s₂, ⟨?_, hfirst.before, hfirst.undecided, hfirst.step,
      hfirst.fatal, hfirst.after.append (.single ⟨hdecided, hstep⟩), ?_⟩, hne,
      hserved.decided_step hpolicy hstep hdecided⟩
    · rw [hfirst.inputs, List.append_assoc, List.cons_append]
    · exact (hserved.reachable.tail_of_decided hstep hdecided).trans hfirst.tail

/-- **What is latched is the class of the first fatal event.** -/
theorem Served.first_latched (h : Served config s) (hpolicy : config.recoveryPolicy = .FailStop)
    (hundecided : s.Undecided) (hruns : Runs (restrict Step Unlatched) s is s')
    (hlatched : s'.shared.impl.faultLatch ≠ .None) (hopen : s.shared.impl.faultLatch = .None) :
    ∃ js i ks s₁ s₂, FirstFatal s is s' s'.shared.impl.faultLatch js i ks s₁ s₂ := by
  obtain ⟨hserved, ⟨-, -, hnone⟩ | ⟨code, js, i, ks, s₁, s₂, hfirst, -, hpoint⟩⟩ :=
    firstFatal_of_runs h hpolicy hundecided hopen hruns
  · exact absurd hnone hlatched
  · have hcode : s'.shared.impl.faultLatch = code := by
      refine hpoint.resolve_left fun ⟨t, ht⟩ => hlatched ?_
      exact hserved.reachable.open_of_doom (t := t) (by simp [ht])
    rw [hcode]
    exact ⟨js, i, ks, s₁, s₂, hfirst⟩

/-- **The class of a fatal event is latched before anything else is decided or opened.** -/
theorem Served.decided_runs (h : Served config s) (hpolicy : config.recoveryPolicy = .FailStop)
    (hdecided : s.Decided code) (hruns : Runs (restrict Step fun _ i => Discovered i) s is s') :
    (s'.Decided code ∧ s'.shared.sessions.tail = s.shared.sessions.tail) ∨
      ∃ js ks s₁, is = js ++ ks ∧ Runs Step s js s₁ ∧ Runs Step s₁ ks s' ∧
        s₁.shared.impl.faultLatch = code ∧ s₁.shared.sessions.tail = s.shared.sessions.tail := by
  induction hruns with
  | nil s => exact .inl ⟨hdecided, rfl⟩
  | @cons s s₁ s' i is hstep hrest ih =>
    have htail := h.reachable.tail_of_decided hstep.2 hdecided
    rcases h.decided_step hpolicy hstep.2 hdecided with hnext | hlatched
    · rcases ih (h.step hstep.1 hstep.2) hnext with ⟨hstill, hsame⟩ |
        ⟨js, ks, s₂, rfl, hleft, hright, hlatched, hsame⟩
      · exact .inl ⟨hstill, hsame.trans htail⟩
      · exact .inr ⟨i :: js, ks, s₂, rfl, .cons hstep.2 hleft, hright, hlatched, hsame.trans htail⟩
    · exact .inr ⟨[i], is, s₁, rfl, .single hstep.2, hrest.of_restrict, hlatched, htail⟩

end

/-! ## After the latch -/

/-- The data section of `start`, which opens the latch. -/
def Pc.opens : Pc → Bool
  | .start _ _ (.data _) => true
  | _ => false

/-- A `bias` whose check has found the client streaming. -/
def Pc.permitted : Pc → Bool
  | .bias _ (.send _) | .bias _ .restart | .bias _ .reset | .bias _ .returned => true
  | _ => false

section

variable {p q : Pc} {t : Tid} {choice : Choice} {s : Shared} {e : Effect Shared Pc}

/-- What the observers of a faulted client see, and what it has opened. -/
structure SameReport (s s' : Shared) : Prop where
  health : s'.impl.health = s.impl.health
  latest : s'.impl.latest = s.impl.latest
  faultLatch : s'.impl.faultLatch = s.impl.faultLatch
  created : s'.created = s.created
  sessions : s'.sessions.tail = s.sessions.tail

theorem SameReport.refl (s : Shared) : SameReport s s := ⟨rfl, rfl, rfl, rfl, rfl⟩

theorem SameReport.trans {s s' s'' : Shared} (h : SameReport s s') (h' : SameReport s' s'') :
    SameReport s s'' :=
  ⟨h'.health.trans h.health, h'.latest.trans h.latest, h'.faultLatch.trans h.faultLatch,
    h'.created.trans h.created, h'.sessions.trans h.sessions⟩

/-- **With a fault latched no action shows**, until a `start` opens the latch. -/
theorem action_sameReport (h : p.action t choice s = some e) (hunfaulted : p.unfaulted = false)
    (hopens : p.opens = false) : SameReport s e.shared := by
  have hstop := stopStreaming_tail s.impl choice s.sessions
  have hattempt := s.sessions.attempt_tail
  have hleave : SameReport s (s.leave t) := ⟨rfl, rfl, rfl, rfl, rfl⟩
  cases p with
  | start ctx callback pc =>
    simp only [Pc.unfaulted, Bool.or_eq_false_iff] at hunfaulted
    cases pc with
    | data saved => cases hopens
    | stopping saved | exited saved | create saved | rollbackStopping saved | rollbackExited saved
    | rollbackRecord saved | rollbackData saved | rollbackReset saved | rollbackPublish saved =>
      cases hunfaulted.2
    | lock | inspect | faulted =>
      simp only [Pc.action, startStep] at h
      repeat' split at h
      all_goals
        cases h
        first
          | exact hleave
          | exact ⟨rfl, rfl, rfl, rfl, rfl⟩
    | reaped | record saved | returned | threw =>
      cases h
      exact ⟨rfl, rfl, rfl, rfl, rfl⟩
    | _ => cases h
  | stop ctx caller pc =>
    simp only [Pc.unfaulted, Bool.or_eq_false_iff] at hunfaulted
    cases pc with
    | idleState | joinedState => cases hunfaulted.2
    | command =>
      cases h
      exact ⟨rfl, rfl, rfl, rfl, hstop⟩
    | self =>
      simp only [Pc.action, stopStep] at h
      repeat' split at h
      all_goals
        cases h
        exact ⟨rfl, rfl, rfl, rfl, rfl⟩
    | returned =>
      cases caller <;> cases h <;> exact ⟨rfl, rfl, rfl, rfl, rfl⟩
    | lock | idleFaulted | relock | joined =>
      cases h
      exact ⟨rfl, rfl, rfl, rfl, rfl⟩
    | _ => cases h
  | bias ctx pc =>
    cases pc with
    | send found | restart =>
      simp only [Pc.action, biasStep] at h
      split at h <;> cases h <;> exact ⟨rfl, rfl, rfl, rfl, hattempt _⟩
    | _ =>
      cases h
      exact ⟨rfl, rfl, rfl, rfl, rfl⟩
  | waitForFirstSample ctx pc =>
    cases pc with
    | enter =>
      simp only [Pc.action, waitStep] at h
      repeat' split at h
      all_goals
        cases h
        exact ⟨rfl, rfl, rfl, rfl, rfl⟩
    | waiting captured => cases h
    | final captured | returned result =>
      cases h
      exact ⟨rfl, rfl, rfl, rfl, rfl⟩
  | query ctx q => cases q <;> cases h <;> exact ⟨rfl, rfl, rfl, rfl, rfl⟩
  | destroy ctx pc => cases pc <;> cases h <;> exact ⟨rfl, rfl, rfl, rfl, rfl⟩
  | run pc =>
    cases pc with
    | finishClose =>
      cases h
      exact ⟨rfl, rfl, rfl, rfl, hstop⟩
    | finishExited | finishFaulted =>
      cases h
      exact ⟨rfl, rfl, rfl, rfl, rfl⟩
    | publishNotifyFirst | publishNotifyLifecycle | finishNotifyFirst | finishNotifyLifecycle | ended =>
      cases h
    | _ => cases hunfaulted
  | outside =>
    simp only [Pc.action, outsideStep] at h
    split at h
    · rename_i call
      simp only [beginCall] at h
      repeat' split at h
      all_goals
        cases h
        try exact ⟨rfl, rfl, rfl, rfl, rfl⟩
    · cases h
  | deferred =>
    simp only [Pc.action, deferredStep] at h
    split_ifs at h
    cases h
    exact ⟨rfl, rfl, rfl, rfl, rfl⟩

/-- A call of a faulted client does not pass the check of `bias`. -/
theorem action_permitted (h : p.action t choice s = some e) (hfaulted : s.impl.faulted = true)
    (hp : p.permitted = false) : e.next.permitted = false := by
  have hresume : ∀ ctx : Ctx, ctx.resume.permitted = false := fun ctx => by cases ctx <;> rfl
  have hbegin : ∀ {ctx call}, beginCall ctx t call s = some e → e.next.permitted = false := by
    intro ctx call hcall
    cases call <;> simp only [beginCall] at hcall <;> grind [Pc.permitted]
  cases p with
  | start ctx callback pc => cases pc <;> simp only [Pc.action, startStep] at h <;> grind [Pc.permitted]
  | stop ctx caller pc =>
    cases pc <;> cases caller <;> simp only [Pc.action, stopStep] at h <;> grind [Pc.permitted]
  | bias ctx pc =>
    cases pc with
    | check =>
      have hdenied : s.impl.biasAllowed = false := by simp [Impl.biasAllowed, hfaulted]
      cases h
      change Pc.permitted (.bias ctx (if s.impl.biasAllowed = true then _ else _)) = false
      rw [hdenied]
      rfl
    | command | record =>
      cases h
      rfl
    | threw =>
      cases h
      exact hresume ctx
    | _ => cases hp
  | waitForFirstSample ctx pc =>
    cases pc <;> simp only [Pc.action, waitStep] at h <;> grind [Pc.permitted]
  | query ctx q => cases q <;> cases h <;> exact hresume ctx
  | destroy ctx pc => cases pc <;> simp only [Pc.action, destroyStep] at h <;> grind [Pc.permitted]
  | run pc =>
    rcases runStep_cases h with ⟨k, call, -, hcall⟩ | ⟨impl, sessions, next, -, rfl⟩
    · exact hbegin hcall
    · rfl
  | outside =>
    simp only [Pc.action, outsideStep] at h
    split at h
    · exact hbegin h
    · cases h
  | deferred =>
    simp only [Pc.action, deferredStep] at h
    split_ifs at h
    cases h
    rfl

/-- No notify or wait leads there. -/
theorem passes_permitted (h : program.Passes p q s) : q.permitted = false := by
  cases goesOn_of_passes h <;> rfl

end

/-- The worker after `publish`. -/
def RunPc.published : RunPc → Bool
  | .publishNotifyFirst | .publishNotifyLifecycle | .finishClose | .finishExited | .finishFaulted
  | .finishState | .finishNotifyFirst | .finishNotifyLifecycle | .ended => true
  | _ => false

theorem RunPc.published_of_unfaulted {pc : RunPc} (h : pc.unfaulted = false) :
    pc.published = true := by
  cases pc <;> first | rfl | cases h

theorem Pc.unfaulted_of_ctx {p : Pc} (h : p.ctx.isCallback = true) : p.unfaulted = true := by
  cases p with
  | run pc =>
    cases pc with
    | inCallback k => rfl
    | _ => cases h
  | start ctx _ _ | stop ctx _ _ => exact Bool.or_eq_true_iff.mpr (.inl h)
  | bias ctx _ | waitForFirstSample ctx _ | query ctx _ | destroy ctx _ => exact h
  | _ => cases h

/-- What holds of a later state `s'`, if a fault is latched in `s`. -/
structure Silent (s s' : System) : Prop where
  same : SameReport s.shared s'.shared
  /-- `health()` reports the fault; the rates and the age of the last record are those of the call. -/
  reports : ∀ now, ∃ receiveRateHz deliveryRateHz lastRecordAge,
    (s'.shared.impl.healthAt now).2 =
      { s.shared.impl.health with
        state := .Faulted
        faultCode := s.shared.impl.faultLatch
        receiveRateHz
        deliveryRateHz
        lastRecordAge }
  /-- The worker is past `publish`, and its callback is not running. -/
  finishing : ∀ t pc, (s'.threads t).pc = .run pc → pc.published = true
  uninvoked : ∀ t, (s'.threads t).pc.ctx.isCallback = false
  throws : ∀ t, (s.threads t).pc.permitted = false → (s'.threads t).pc.permitted = false

section

variable {config : Config} {s s' : System} {is : List Input} {i : Input}

/-- A step after the latch. -/
theorem System.Reachable.silent_step (h : s.Reachable config)
    (hlatched : s.shared.impl.faultLatch ≠ .None) (hopens : (s.threads i.tid).pc.opens = false)
    (hstep : Step s i s') :
    SameReport s.shared s'.shared ∧
      ∀ t, (s.threads t).pc.permitted = false → (s'.threads t).pc.permitted = false := by
  by_cases hact : ∃ takes f, (s.threads i.tid).pc.instr = .act takes f
  · obtain ⟨takes, f, hinstr⟩ := hact
    obtain ⟨choice, e, -, hf, hshared, hpc, hothers⟩ := h.consistent.step_act hstep hinstr
    obtain ⟨-, rfl⟩ := Pc.instr_act hinstr
    have hunfaulted : (s.threads i.tid).pc.unfaulted = false := by
      by_contra hunfaulted
      exact hlatched ((h.latch.2 i.tid).unfaulted (by simpa using hunfaulted))
    rw [hshared]
    refine ⟨action_sameReport hf hunfaulted hopens, fun t ht => ?_⟩
    by_cases hti : t = i.tid
    · subst hti
      rw [hpc]
      exact action_permitted hf (by simpa [Impl.faulted] using hlatched) ht
    · rcases hothers t hti with hsame | ⟨-, hspawned⟩
      · rw [hsame]
        exact ht
      · rw [spawned_run hf hspawned]
        rfl
  · refine ⟨?_, fun t ht => point_of_not_act (P := fun p => p.permitted = false) hstep hact
      (fun p q hpass _ => passes_permitted hpass) (fun _ _ _ _ => rfl) (fun _ _ _ _ => rfl) ht⟩
    rcases Program.step_shared hstep with hsame | ⟨takes, f, _, _, hinstr, -⟩ |
      ⟨child, f, q, hinstr, hshared⟩
    · rw [hsame]
      exact .refl _
    · exact absurd ⟨takes, f, hinstr⟩ hact
    · obtain ⟨rfl, -⟩ := Pc.instr_join hinstr
      rw [hshared]
      exact ⟨rfl, rfl, rfl, rfl, rfl⟩

/-- **Once a fault is latched, nothing happens until a `start` opens the latch.** -/
theorem System.Reachable.silent (h : s.Reachable config) (hlatched : s.shared.impl.faultLatch ≠ .None)
    (hruns : Runs (restrict Step fun s i => (s.threads i.tid).pc.opens = false) s is s') :
    Silent s s' := by
  have hinv := hruns.invariant (I := fun s' : System => s'.Reachable config ∧
    SameReport s.shared s'.shared ∧
      ∀ t, (s.threads t).pc.permitted = false → (s'.threads t).pc.permitted = false)
    (fun s₁ i s₂ hinv hstep => ?_) ⟨h, .refl _, fun _ ht => ht⟩
  · obtain ⟨hreach, hsame, hthrows⟩ := hinv
    have hlatched' : s'.shared.impl.faultLatch ≠ .None := hsame.faultLatch ▸ hlatched
    have hpast : ∀ t, (s'.threads t).pc.unfaulted = false := fun t => by
      by_contra hunfaulted
      exact hlatched' ((hreach.latch.2 t).unfaulted (by simpa using hunfaulted))
    refine ⟨hsame, fun now => ?_, fun t pc hpc => ?_, fun t => ?_, hthrows⟩
    · let report := (s'.shared.impl.healthAt now).2
      refine ⟨report.receiveRateHz, report.deliveryRateHz, report.lastRecordAge, ?_⟩
      have hcode : s'.shared.impl.faultCode ≠ .None := hlatched'
      rw [← hsame.health, ← hsame.faultLatch]
      simp only [report, Impl.healthAt, if_pos hcode]
      rfl
    · have hrun := hpast t
      rw [hpc] at hrun
      exact RunPc.published_of_unfaulted hrun
    · by_contra hctx
      exact absurd (Pc.unfaulted_of_ctx (by simpa using hctx)) (by simp [hpast t])
  · obtain ⟨hreach, hsame, hthrows⟩ := hinv
    obtain ⟨hnext, hthrow⟩ :=
      hreach.silent_step (hsame.faultLatch ▸ hlatched) hstep.1 hstep.2
    exact ⟨hreach.step hstep.2, hsame.trans hnext, fun t ht => hthrow t (hthrows t ht)⟩

end

/-! ## The end of the run -/

namespace RunPc

/-- How far the worker that has decided a class is from the end of `run`. -/
def remaining : RunPc → Nat
  | .invoke _ => 17
  | .inCallback _ => 16
  | .callbackThrew _ _ | .deliver _ => 15
  | .deliveredFirst _ => 14
  | .deliveredLifecycle _ => 13
  | .close _ _ => 12
  | .settle _ _ => 11
  | .publish _ _ => 10
  | .publishNotifyFirst => 9
  | .publishNotifyLifecycle => 8
  | .finishClose => 7
  | .finishExited => 6
  | .finishFaulted => 5
  | .finishState => 4
  | .finishNotifyFirst => 3
  | .finishNotifyLifecycle => 2
  | _ => 0

/-- The worker takes the class `code` to the latch, or has done so. -/
def Ending (code : FaultCode) (c : Impl) (pc : RunPc) : Prop :=
  c.config.recoveryPolicy = .FailStop ∧
    (pc.doom = some code ∧ c.faultLatch = .None ∨ pc.published = true ∧ c.faultLatch = code)

end RunPc

/-- Thread `t`, which is the worker, comes to the end of `run` with `code` latched. -/
def ComesToEnd (t : Tid) (code : FaultCode) (s : System) : Prop :=
  ∃ is s', Runs (restrict Step fun _ i => i.tid = t) s is s' ∧ (s'.threads t).pc = .run .ended ∧
    s'.shared.impl.faultLatch = code

section

variable {s s₁ : System} {t : Tid} {pc : RunPc} {code : FaultCode}

/-- The worker can go on, and gets closer to the latch. -/
theorem exists_decidedStep (hsolo : Program.Solo s t) (hpc : (s.threads t).pc = .run pc)
    (hpolicy : s.shared.impl.config.recoveryPolicy = .FailStop) (hdoom : pc.doom = some code)
    (hopen : s.shared.impl.faultLatch = .None) :
    ∃ choice shared pc' s₁, program.SoloStep s t choice shared (.run pc') s₁ ∧
      pc'.Ending code shared.impl ∧ pc'.remaining < pc.remaining := by
  have hact : ∀ choice {shared pc'}, (Pc.run pc).instr = .act pc.takes (runStep pc) →
      runStep pc t choice s.shared = some ⟨shared, .run pc', none⟩ →
      ∃ s₁, program.SoloStep s t choice shared (.run pc') s₁ := fun choice {_ _} hinstr hf =>
    Program.Solo.act (P := program) hsolo (by rw [hpc]; exact hinstr) hf rfl
  have hnotify : ∀ {c pc'}, (Pc.run pc).instr = .notify c (.run pc') →
      ∃ s₁, program.SoloStep s t .proceed s.shared (.run pc') s₁ := fun hinstr =>
    Program.Solo.notify (P := program) hsolo .proceed (by rw [hpc]; exact hinstr)
  have hcarried : ∀ {pc' : RunPc} {c : Impl}, c.config = s.shared.impl.config →
      c.faultLatch = s.shared.impl.faultLatch → pc'.doom = some code → pc'.Ending code c :=
    fun hconfig hlatch hdoom => ⟨hconfig ▸ hpolicy, .inl ⟨hdoom, hlatch.trans hopen⟩⟩
  -- a record on its way to the latch has an outcome
  have hrecord : ∀ k : Invocation, k.outcome.bind SessionResult.code = some code →
      ∃ result, k.outcome = some result ∧ result.code = some code := fun k h =>
    Option.bind_eq_some_iff.mp h
  cases pc with
  | invoke k =>
    obtain ⟨s₁, hstep⟩ := hact .proceed rfl rfl
    refine ⟨_, _, _, s₁, hstep, ?_⟩
    split_ifs
    · exact ⟨hcarried rfl rfl hdoom, by simp [RunPc.remaining]⟩
    · exact ⟨hcarried rfl rfl hdoom, by simp [RunPc.remaining]⟩
  | inCallback k =>
    obtain ⟨s₁, hstep⟩ := hact .returned rfl rfl
    exact ⟨_, _, _, s₁, hstep, hcarried rfl rfl hdoom, by simp [RunPc.remaining]⟩
  | callbackThrew k what =>
    obtain ⟨s₁, hstep⟩ := hact .proceed rfl rfl
    obtain ⟨result, houtcome, hcode⟩ := hrecord k hdoom
    refine ⟨_, _, _, s₁, hstep, ?_⟩
    rw [houtcome, callbackFailureOutcome, if_pos (.inl rfl)]
    exact ⟨hcarried rfl rfl hcode, by simp [RunPc.remaining, RunPc.afterRecord]⟩
  | deliver k =>
    obtain ⟨s₁, hstep⟩ := hact .proceed rfl rfl
    exact ⟨_, _, _, s₁, hstep, hcarried rfl rfl hdoom, by simp [RunPc.remaining]⟩
  | deliveredFirst k =>
    obtain ⟨s₁, hstep⟩ := hnotify rfl
    exact ⟨_, _, _, s₁, hstep, hcarried rfl rfl hdoom, by simp [RunPc.remaining]⟩
  | deliveredLifecycle k =>
    obtain ⟨s₁, hstep⟩ := hnotify rfl
    obtain ⟨result, houtcome, hcode⟩ := hrecord k hdoom
    refine ⟨_, _, _, s₁, hstep, ?_⟩
    rw [houtcome]
    exact ⟨hcarried rfl rfl hcode, by simp [RunPc.remaining, RunPc.afterRecord]⟩
  | close b outcome =>
    obtain ⟨s₁, hstep⟩ := hact .proceed rfl rfl
    exact ⟨_, _, _, s₁, hstep, hcarried rfl rfl hdoom, by simp [RunPc.remaining]⟩
  | settle b outcome =>
    have hresult : outcome.withMessage.result ≠ .Stopped := by
      rw [SessionOutcome.withMessage_result, ne_eq, ← SessionResult.code_eq_none_iff]
      exact fun hnone => by simp [RunPc.doom, hnone] at hdoom
    have hcode : faultFor outcome.withMessage.result = code := by
      rw [SessionOutcome.withMessage_result] at hresult ⊢
      simpa [RunPc.doom, SessionResult.code, hresult] using hdoom
    obtain ⟨s₁, hstep⟩ := hact .proceed rfl rfl
    refine ⟨_, _, _, s₁, hstep, ?_⟩
    rw [if_pos ⟨hresult, hpolicy⟩, hcode]
    exact ⟨hcarried rfl rfl rfl, by simp [RunPc.remaining]⟩
  | publish published message =>
    cases hdoom
    obtain ⟨s₁, hstep⟩ := hact .proceed rfl rfl
    refine ⟨_, _, _, s₁, hstep, ⟨?_, .inr ⟨rfl, ?_⟩⟩, by simp [RunPc.remaining]⟩
    · change (s.shared.impl.publishFault code message).config.recoveryPolicy = .FailStop
      rw [Impl.publishFault, if_pos hopen]
      exact hpolicy
    · change (s.shared.impl.publishFault code message).faultLatch = code
      rw [Impl.publishFault, if_pos hopen]
  | _ => cases hdoom

/-- And from there to the end of `run`. -/
theorem exists_publishedStep (hsolo : Program.Solo s t) (hpc : (s.threads t).pc = .run pc)
    (hpolicy : s.shared.impl.config.recoveryPolicy = .FailStop) (hpublished : pc.published = true)
    (hlatched : s.shared.impl.faultLatch = code) (hne : pc ≠ .ended) :
    ∃ choice shared pc' s₁, program.SoloStep s t choice shared (.run pc') s₁ ∧
      pc'.Ending code shared.impl ∧ pc'.remaining < pc.remaining := by
  have hgo : ∀ {shared pc' s₁}, program.SoloStep s t .proceed shared (.run pc') s₁ →
      pc'.published = true → shared.impl.config = s.shared.impl.config →
      shared.impl.faultLatch = s.shared.impl.faultLatch → pc'.remaining < pc.remaining →
      ∃ choice shared pc' s₁, program.SoloStep s t choice shared (.run pc') s₁ ∧
        pc'.Ending code shared.impl ∧ pc'.remaining < pc.remaining :=
    fun hstep hnext hconfig hlatch hless =>
      ⟨_, _, _, _, hstep, ⟨hconfig ▸ hpolicy, .inr ⟨hnext, hlatch.trans hlatched⟩⟩, hless⟩
  have hact : ∀ {shared pc'}, (Pc.run pc).instr = .act pc.takes (runStep pc) →
      runStep pc t .proceed s.shared = some ⟨shared, .run pc', none⟩ →
      ∃ s₁, program.SoloStep s t .proceed shared (.run pc') s₁ := fun hinstr hf =>
    Program.Solo.act (P := program) hsolo (by rw [hpc]; exact hinstr) hf rfl
  have hnotify : ∀ {c pc'}, (Pc.run pc).instr = .notify c (.run pc') →
      ∃ s₁, program.SoloStep s t .proceed s.shared (.run pc') s₁ := fun hinstr =>
    Program.Solo.notify (P := program) hsolo .proceed (by rw [hpc]; exact hinstr)
  cases pc with
  | publishNotifyFirst | publishNotifyLifecycle | finishNotifyFirst | finishNotifyLifecycle =>
    obtain ⟨s₁, hstep⟩ := hnotify rfl
    exact hgo hstep rfl rfl rfl (by simp [RunPc.remaining])
  | finishClose | finishExited | finishState =>
    obtain ⟨s₁, hstep⟩ := hact rfl rfl
    exact hgo hstep rfl rfl rfl (by simp [RunPc.remaining])
  | finishFaulted =>
    obtain ⟨s₁, hstep⟩ := hact rfl rfl
    refine hgo hstep ?_ rfl rfl ?_
    · split_ifs <;> rfl
    · split_ifs <;> simp [RunPc.remaining]
  | ended => exact absurd rfl hne
  | _ => cases hpublished

/-- **The worker that has decided a class latches it and ends the run.** -/
theorem comesToEnd_of_ending (hsolo : Program.Solo s t) (hpc : (s.threads t).pc = .run pc)
    (hending : pc.Ending code s.shared.impl) : ComesToEnd t code s := by
  induction hn : pc.remaining using Nat.strong_induction_on generalizing s pc with
  | _ n ih =>
    by_cases hended : pc = .ended
    · subst hended
      rcases hending with ⟨-, ⟨hdoom, -⟩ | ⟨-, hlatched⟩⟩
      · cases hdoom
      · exact ⟨[], s, .nil s, hpc, hlatched⟩
    · obtain ⟨choice, shared, pc', s₁, hstep, hnext, hless⟩ :
          ∃ choice shared pc' s₁, program.SoloStep s t choice shared (.run pc') s₁ ∧
            pc'.Ending code shared.impl ∧ pc'.remaining < pc.remaining := by
        rcases hending with ⟨hpolicy, ⟨hdoom, hopen⟩ | ⟨hpublished, hlatched⟩⟩
        · exact exists_decidedStep hsolo hpc hpolicy hdoom hopen
        · exact exists_publishedStep hsolo hpc hpolicy hpublished hlatched hended
      obtain ⟨is, s', hruns, hend⟩ :=
        ih pc'.remaining (hn ▸ hless) hstep.solo hstep.pc (hstep.shared ▸ hnext) rfl
      exact ⟨_, s', .cons ⟨rfl, hstep.step⟩ hruns, hend⟩

end

/-! ## The contract -/

/-- What FailStop promises. -/
structure FailStopLatches (config : Config) : Prop where
  /-- What is latched is the class of the first fatal event: until then no session has ended in another
  way than `Stopped`, and after it no session is opened and nothing else is decided. -/
  first : ∀ (s s' : System) is, Served config s → s.Undecided → s.shared.impl.faultLatch = .None →
    Runs (restrict Step Unlatched) s is s' → s'.shared.impl.faultLatch ≠ .None →
    ∃ js i ks s₁ s₂, FirstFatal s is s' s'.shared.impl.faultLatch js i ks s₁ s₂
  /-- The class of a fatal event is on its way until it is latched. -/
  latches : ∀ (s s₁ s' : System) i is code, Served config s → s.Undecided → Discovered i → Step s i s₁ →
    (s.threads i.tid).pc.fatal s.shared.impl = some code →
    Runs (restrict Step fun _ i => Discovered i) s₁ is s' →
    (s'.Decided code ∧ s'.shared.sessions.tail = s₁.shared.sessions.tail) ∨
      ∃ js ks s₂, is = js ++ ks ∧ Runs Step s₁ js s₂ ∧ Runs Step s₂ ks s' ∧
        s₂.shared.impl.faultLatch = code ∧ s₂.shared.sessions.tail = s₁.shared.sessions.tail
  /-- The worker that carries it, outside its callback's calls, latches it and ends the run. -/
  ends : ∀ (s : System) t pc code, s.Reachable config → Program.Solo s t → (s.threads t).pc = .run pc →
    pc.doom = some code → ComesToEnd t code s
  /-- Once a fault is latched, nothing happens until a `start` opens the latch. -/
  silent : ∀ (s s' : System) is, s.Reachable config → s.shared.impl.faultLatch ≠ .None →
    Runs (restrict Step fun s i => (s.threads i.tid).pc.opens = false) s is s' → Silent s s'

/-- **FailStop latches the first fatal cause, and then nothing happens.** -/
theorem failStop_latches {config : Config} (hpolicy : config.recoveryPolicy = .FailStop) :
    FailStopLatches config where
  first _ _ _ hserved hundecided hopen hruns hlatched :=
    hserved.first_latched hpolicy hundecided hruns hlatched hopen
  latches _ _ _ _ _ _ hserved hundecided hdiscovered hstep hfatal hruns :=
    (hserved.step hdiscovered hstep).decided_runs hpolicy
      ((hserved.undecided_step hpolicy hstep hundecided).1 _ hfatal) hruns
  ends s t pc code hreach hsolo hpc hdoom := by
    refine comesToEnd_of_ending hsolo hpc ⟨hreach.config ▸ hpolicy, .inl ⟨hdoom, ?_⟩⟩
    exact hreach.open_of_doom (t := t) (by rw [hpc, Pc.doom, hdoom]; exact Option.some_ne_none code)
  silent _ _ _ hreach hlatched hruns := hreach.silent hlatched hruns

/-- The worker fails to discover the sensor, and latches that. -/
def latchingRun : List Input := startRun ++ discoveryFails ++ steps 2 4

/-- The class of the first fatal event in a run that latches. -/
theorem failStop_latches_discovery : ∃ (s' : System) (js ks : List Input) (i : Input) (s₁ s₂ : System),
    s'.shared.impl.faultLatch = .SensorConfiguration ∧
      FirstFatal (System.init failStopConfig) latchingRun s' .SensorConfiguration js i ks s₁ s₂ := by
  have hrun : ((Library.execute (Library.restrictNext program.next fun s i =>
      s.shared.impl.faultLatch = .None ∧ (s.threads i.tid).pc.republishes = false)
      (System.init failStopConfig) latchingRun).map fun s =>
        decide (s.shared.impl.faultLatch = .SensorConfiguration)) = some true := by
    decide +kernel
  obtain ⟨s', hruns, hs⟩ := Library.exists_runs_of_execute hrun
  have hlatched : s'.shared.impl.faultLatch = .SensorConfiguration := of_decide_eq_true hs
  have hunlatched : Runs (restrict Step Unlatched) (System.init failStopConfig) latchingRun s' := by
    refine (hruns.mono fun _ _ _ h => Library.restrictNext_restrict h).restrict_inputs ?_
    -- discovery finds nothing in this run
    simp [latchingRun, startRun, discoveryFails, steps, go, Discovered]
  have hserved : Served failStopConfig (System.init failStopConfig) := ⟨by rintro _ ⟨⟩, .init⟩
  obtain ⟨js, i, ks, s₁, s₂, hfirst⟩ := (failStop_latches rfl).first _ s' latchingRun hserved
    (fun t => by simp only [System.init]; split_ifs <;> rfl) rfl hunlatched (by simp [hlatched])
  exact ⟨s', js, ks, i, s₁, s₂, hlatched, hlatched ▸ hfirst⟩

end NetFT.Client
