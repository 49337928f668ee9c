/-
# NetFT.Client.Sequential — what the sequential model does, the worker can do.

`NetFT.Client.Session` has `run` and `receive_session` in program order, as functions of what happens to
them; `NetFT.Client.Machine` has them as steps of a thread.

* `Alone` is the worker by itself, without the other threads: `alone_of_step` and `Alone.exists_runs` say
  that it moves so in the machine.
* `Comes` follows the sequential model with it, one lemma for each function.
* `Sessions` are the sessions of a run that is not over: `comes_sessions` and `comes_lastSession`.
-/
import Mathlib.Logic.Relation
import NetFT.Client.WorkerSafety

namespace NetFT.Client

set_option autoImplicit false

open Library (Runs restrict)
open Library.Threads (Tid Effect Instr Program Sys)
open Relation (ReflTransGen)

/-! ## The worker by itself -/

/-- What the environment of a worker does that is left alone: its clock is past the epoch, and its
callback makes no calls. -/
def Choice.Own : Choice → Prop
  | .call _ => False
  | .reading now => 0 < now
  | _ => True

/-- Where the worker goes on to from a notify or a wait. -/
def RunPc.passes : RunPc → Option RunPc
  | .deliveredFirst k => some (.deliveredLifecycle k)
  | .deliveredLifecycle k => some (.afterRecord k.loop k.outcome)
  | .backoffWait b => some (.backoffDone b)
  | .publishNotifyFirst => some .publishNotifyLifecycle
  | .publishNotifyLifecycle => some .finishClose
  | .finishNotifyFirst => some .finishNotifyLifecycle
  | .finishNotifyLifecycle => some .ended
  | _ => none

/-- The worker and what it alone writes. -/
structure Alone.State where
  pc : RunPc
  impl : Impl
  sessions : Wire

/-- One move of a worker that is left alone. -/
inductive Alone : Alone.State → Alone.State → Prop where
  | act {pc pc' : RunPc} {c c' : Impl} {wire wire' : Wire} (choice : Choice) : choice.Own →
      pc.step choice c wire = some (c', wire', pc') → Alone ⟨pc, c, wire⟩ ⟨pc', c', wire'⟩
  | pass {pc pc' : RunPc} {c : Impl} {wire : Wire} : pc.passes = some pc' →
      Alone ⟨pc, c, wire⟩ ⟨pc', c, wire⟩

/-- The inputs of a run in which thread `w` alone moves. -/
def OwnInput (w : Tid) (i : Input) : Prop :=
  i.tid = w ∧ ∀ choice, i.move = .go choice → choice.Own

/-- Thread `w` as a worker. -/
def System.worker (s : System) (pc : RunPc) : Alone.State := ⟨pc, s.shared.impl, s.shared.sessions⟩

section

variable {s s' : System} {i : Input} {w : Tid} {pc pc' : RunPc}

theorem runStep_of_own {choice : Choice} {t : Tid} {shared : Shared} (h : choice.Own) :
    runStep pc t choice shared = (pc.step choice shared.impl shared.sessions).map
      fun (impl, sessions, next) => ⟨{ shared with impl, sessions }, .run next, none⟩ := by
  unfold runStep
  split
  · cases h
  · rfl

/-- An instruction of the worker is an action or goes on. -/
theorem RunPc.instr_cases (pc : RunPc) :
    (Pc.run pc).instr = .act pc.takes (runStep pc) ∧ pc.passes = none ∨
      ∃ pc', pc.passes = some pc' ∧
        ((∃ c, (Pc.run pc).instr = .notify c (.run pc')) ∨
          ∃ b, pc = .backoffWait b ∧ pc' = .backoffDone b) := by
  cases pc with
  | deliveredFirst | deliveredLifecycle | publishNotifyFirst | publishNotifyLifecycle
  | finishNotifyFirst | finishNotifyLifecycle => exact .inr ⟨_, rfl, .inl ⟨_, rfl⟩⟩
  | backoffWait b => exact .inr ⟨_, rfl, .inr ⟨b, rfl, rfl⟩⟩
  | _ => exact .inl ⟨rfl, rfl⟩

/-- **A step of the machine in which the worker alone moves** is a move of the worker, or none. -/
theorem alone_of_step (hcons : program.Consistent s) (hstep : Step s i s') (hown : OwnInput w i)
    (hpc : (s.threads w).pc = .run pc) :
    ∃ pc', (s'.threads w).pc = .run pc' ∧
      ReflTransGen Alone (s.worker pc) (s'.worker pc') := by
  obtain ⟨rfl, hchoice⟩ := hown
  rcases pc.instr_cases with ⟨hinstr, -⟩ | ⟨next, hpasses, hinstr⟩
  · rw [← hpc] at hinstr
    obtain ⟨choice, e, hmove, hf, hshared, hnext, -⟩ := hcons.step_act hstep hinstr
    have hchoice' := hchoice choice hmove
    rw [runStep_of_own hchoice', Option.map_eq_some_iff] at hf
    obtain ⟨⟨impl, sessions, pc'⟩, hpcstep, rfl⟩ := hf
    refine ⟨pc', hnext, .single ?_⟩
    rw [System.worker, System.worker, hshared]
    exact .act choice hchoice' hpcstep
  · have hact : ¬ ∃ takes f, (s.threads i.tid).pc.instr = .act takes f := by
      rintro ⟨takes, f, hact⟩
      rw [hpc] at hact
      rcases hinstr with ⟨c, hnotify⟩ | ⟨b, rfl, -⟩
      · rw [hnotify] at hact
        cases hact
      · cases hact
    obtain ⟨himpl, hsessions⟩ := shared_of_not_act hstep hact
    have hsame : ∀ q, s'.worker q = ⟨q, s.shared.impl, s.shared.sessions⟩ := by
      intro q
      rw [System.worker, himpl, hsessions]
    rcases Program.step_pc hstep i.tid with heq | ⟨-, takes, f, _, _, hact', -⟩ | ⟨-, hgo⟩ |
      ⟨-, child, f, hjoin⟩ | ⟨-, takes, f, _, _, hact', -⟩
    · exact ⟨pc, heq.trans hpc, by rw [hsame]; exact .refl⟩
    · exact absurd ⟨takes, f, hact'⟩ hact
    · rw [hpc] at hgo
      have hq : (s'.threads i.tid).pc = .run next := by
        have hon := goesOn_of_passes hgo
        generalize (s'.threads i.tid).pc = q at hon
        cases hon <;> cases hpasses <;> rfl
      refine ⟨next, hq, ?_⟩
      rw [hsame]
      exact .single (.pass hpasses)
    · rw [hpc] at hjoin
      obtain ⟨-, ⟨_, _, hp, -⟩ | ⟨_, _, hp, -⟩⟩ := Pc.instr_join hjoin <;> cases hp
    · exact absurd ⟨takes, f, hact'⟩ hact

/-- **A move of the worker by itself** is a run of the machine, while no other thread owns a mutex. -/
theorem Alone.exists_runs {x : Alone.State} (h : Alone (s.worker pc) x) (hsolo : Program.Solo s w)
    (hpc : (s.threads w).pc = .run pc) :
    ∃ is s', Runs (restrict Step fun _ i => OwnInput w i) s is s' ∧ Program.Solo s' w ∧
      (s'.threads w).pc = .run x.pc ∧ s'.worker x.pc = x := by
  generalize hworker : s.worker pc = y at h
  cases h with
  | @act _ pc' _ c' _ wire' choice hchoice hstep =>
    cases hworker
    have hf : runStep pc w choice s.shared =
        some ⟨{ s.shared with impl := c', sessions := wire' }, .run pc', none⟩ := by
      rw [runStep_of_own hchoice, hstep]
      rfl
    have hinstr : (Pc.run pc).instr = .act pc.takes (runStep pc) := by
      rcases pc.instr_cases with ⟨hinstr, -⟩ | ⟨next, hpasses, -⟩
      · exact hinstr
      · cases pc <;> cases hpasses <;> cases hstep
    obtain ⟨s₁, hsolostep⟩ := Program.Solo.act (P := program) hsolo (by rw [hpc]; exact hinstr) hf rfl
    refine ⟨_, s₁, .single ⟨⟨rfl, fun choice' heq => ?_⟩, hsolostep.step⟩, hsolostep.solo, hsolostep.pc, ?_⟩
    · cases heq
      exact hchoice
    · rw [System.worker, hsolostep.shared]
  | @pass _ pc' c wire hpasses =>
    cases hworker
    rcases pc.instr_cases with ⟨-, hnone⟩ | ⟨next, hpasses', hinstr⟩
    · rw [hnone] at hpasses
      cases hpasses
    · obtain rfl := Option.some.inj (hpasses.symm.trans hpasses')
      rcases hinstr with ⟨c, hnotify⟩ | ⟨b, rfl, rfl⟩
      · obtain ⟨s₁, hsolostep⟩ := Program.Solo.notify (P := program) hsolo .proceed
          (by rw [hpc]; exact hnotify)
        refine ⟨_, s₁, .single ⟨⟨rfl, fun choice' heq => ?_⟩, hsolostep.step⟩, hsolostep.solo,
          hsolostep.pc, ?_⟩
        · cases heq
          exact trivial
        · rw [System.worker, hsolostep.shared]
      · have hinstr : (s.threads w).pc.instr = .wait .firstSample (fun s => s.impl.stopping)
            (.run (.backoffDone b)) (some (.run (.backoffDone b))) := by
          rw [hpc]
          rfl
        by_cases hready : s.shared.impl.stopping = true
        · obtain ⟨s₁, hsolostep⟩ := Program.Solo.pass (P := program) hsolo .proceed hinstr hready
          refine ⟨_, s₁, .single ⟨⟨rfl, fun choice' heq => ?_⟩, hsolostep.step⟩, hsolostep.solo,
            hsolostep.pc, ?_⟩
          · cases heq
            exact trivial
          · rw [System.worker, hsolostep.shared]
        · obtain ⟨s₁, hruns, hsolo₁, hshared, hpc₁⟩ := Program.Solo.expire (P := program) hsolo
            Choice.proceed hinstr (Bool.not_eq_true _ ▸ hready)
          refine ⟨_, s₁, hruns.restricted fun js i s₂ hprefix _ => ?_, hsolo₁, hpc₁, ?_⟩
          · -- none of the three inputs is a call or a clock reading
            have hmem : i ∈ ([⟨w, .go .proceed⟩, ⟨w, .block⟩, ⟨w, .expire⟩] : List Input) :=
              hprefix.subset (by simp)
            simp only [List.mem_cons, List.not_mem_nil, or_false] at hmem
            rcases hmem with rfl | rfl | rfl <;> refine ⟨rfl, fun choice heq => ?_⟩ <;> cases heq
            exact trivial
          · rw [System.worker, hshared]

end

/-! ## What the sequential model does, the worker can do -/

/-- The worker by itself can come from one control point to another. -/
def Comes (pc : RunPc) (c : Impl) (pc' : RunPc) (c' : Impl) : Prop :=
  ∀ wire, ∃ wire', ReflTransGen Alone ⟨pc, c, wire⟩ ⟨pc', c', wire'⟩

namespace Comes

variable {pc pc₁ pc' : RunPc} {c c₁ c' : Impl}

theorem refl (pc : RunPc) (c : Impl) : Comes pc c pc c := fun wire => ⟨wire, .refl⟩

theorem trans (h : Comes pc c pc₁ c₁) (h' : Comes pc₁ c₁ pc' c') : Comes pc c pc' c' := by
  intro wire
  obtain ⟨wire₁, hfirst⟩ := h wire
  obtain ⟨wire', hsecond⟩ := h' wire₁
  exact ⟨wire', hfirst.trans hsecond⟩

/-- An action, and what comes after it. -/
theorem act (choice : Choice) (hown : choice.Own) (h' : Comes pc₁ c₁ pc' c')
    (h : ∀ wire, ∃ wire', pc.step choice c wire = some (c₁, wire', pc₁)) : Comes pc c pc' c' := by
  refine Comes.trans (fun wire => ?_) h'
  obtain ⟨wire', hstep⟩ := h wire
  exact ⟨wire', .single (.act choice hown hstep)⟩

theorem pass (h' : Comes pc₁ c pc' c') (h : pc.passes = some pc₁) : Comes pc c pc' c' :=
  Comes.trans (fun wire => ⟨wire, .single (.pass h)⟩) h'

end Comes

/-- No stop request and no fault: the worker goes on. -/
def Impl.Going (c : Impl) : Prop := c.stopping = false ∧ c.faultLatch = .None

/-- Where the worker is when a part of a session has ended in this way. -/
def LoopResult.pc (backoff : Seconds) : LoopResult → RunPc
  | .next s => .check ⟨backoff, s.deadline, s.receivedValidRecord⟩
  | .ended _ outcome => .close backoff outcome
  | .raised _ what => .raised what

/-- The clock readings of a pass, and of a session, are past the epoch. -/
def Pass.Clocked (p : Pass) : Prop := 0 < p.now ∧ 0 < p.receivedAt

structure SessionInput.Clocked (input : SessionInput) : Prop where
  openedAt : 0 < input.openedAt
  passes : ∀ p ∈ input.passes, p.Clocked
  backoffAt : 0 < input.backoffAt

section

variable {c : Impl} {b : Seconds}

theorem comes_sendFailed {what : String} (h : c.stopping = false) :
    Comes (.sendFailed b what) c (.close b { result := .Socket, message := what }) c := by
  refine Comes.act .proceed trivial ?_ fun _ => ⟨_, rfl⟩
  rw [RunPc.endSession, h, if_neg Bool.false_ne_true]
  exact .refl _ _

/-- `receive_session` from its `connect` to its loop. -/
theorem comes_connect {input : SessionInput} {result : LoopResult} (h : c.stopping = false)
    (hclock : 0 < input.openedAt)
    (hresult : result = match input.connect with
      | .error what => .ended c { result := .Socket, message := what }
      | .ok () =>
        let c := c.connectTransport
        match input.send with
        | .error what => .ended c { result := .Socket, message := what }
        | .ok () =>
          let c := (c.setSessionStarted true).resetSequences
          match checkedDeadline input.openedAt c.config.receiveTimeout with
          | .error what => .raised c what
          | .ok deadline => .next { impl := c, deadline, receivedValidRecord := false }) :
    Comes (.connect b) c (result.pc b) result.impl := by
  cases hconnect : input.connect with
  | error what =>
    simp only [hconnect] at hresult
    subst hresult
    exact .act (.fail what) trivial (comes_sendFailed h) fun _ => ⟨_, rfl⟩
  | ok _ =>
    simp only [hconnect] at hresult
    refine .act .proceed trivial ?_ fun _ => ⟨_, rfl⟩
    refine .act .proceed trivial ?_ fun _ => ⟨_, rfl⟩
    rw [show c.connectTransport.stopping = false from h, if_neg Bool.false_ne_true]
    cases hsend : input.send with
    | error what =>
      simp only [hsend] at hresult
      subst hresult
      exact .act (.fail what) trivial (comes_sendFailed h) fun _ => ⟨_, rfl⟩
    | ok _ =>
      simp only [hsend] at hresult
      refine .act .proceed trivial ?_ fun _ => ⟨_, rfl⟩
      refine .act .proceed trivial ?_ fun _ => ⟨_, rfl⟩
      apply Comes.act (.reading input.openedAt) hclock (.refl _ _)
      intro wire
      refine ⟨wire, ?_⟩
      subst hresult
      simp only [RunPc.step, RunPc.stepOpen]
      cases checkedDeadline input.openedAt
        (c.connectTransport.setSessionStarted true).resetSequences.config.receiveTimeout <;> rfl

/-- The choice of this step is how discovery ends. -/
theorem RunPc.step_discover (c : Impl) (discovery : Except String SensorConfiguration) :
    ∃ found : Choice, found.Own ∧ ∀ wire, (RunPc.discover b).step found c wire =
      some (match configurationForSession c.config discovery with
        | .ok configuration => (c, wire, .apply b configuration)
        | .error what => (c, wire, .discoverFailed b what)) := by
  cases discovery with
  | ok configuration => exact ⟨.configuration configuration, trivial, fun _ => rfl⟩
  | error what => exact ⟨.fail what, trivial, fun _ => rfl⟩

/-- `receive_session` up to its loop. -/
theorem comes_openSession {input : SessionInput} (h : c.Going) (hclock : 0 < input.openedAt) :
    Comes (.loop b) c ((c.openSession input).pc b) (c.openSession input).impl := by
  obtain ⟨hstop, hfault⟩ := h
  have hgo : (c.stopping || c.faulted) = false := by simp [hstop, Impl.faulted, hfault]
  have hstop₁ : (c.setState .Connecting).stopping = false := hstop
  refine .act .proceed trivial ?_ fun _ => ⟨_, rfl⟩
  rw [hgo, if_neg Bool.false_ne_true]
  refine .act .proceed trivial ?_ fun _ => ⟨_, rfl⟩
  refine .act .proceed trivial ?_ fun _ => ⟨_, rfl⟩
  rw [hstop₁, if_neg Bool.false_ne_true]
  obtain ⟨found, hfound, hdiscover⟩ := RunPc.step_discover (b := b) (c.setState .Connecting) input.discovery
  rw [show (c.setState .Connecting).config = c.config from rfl] at hdiscover
  cases hconf : configurationForSession c.config input.discovery with
  | error what =>
    have hopen : c.openSession input = .ended (c.setState .Connecting)
        { result := .SensorConfiguration, message := what } := by
      simp only [Impl.openSession, hstop₁, Bool.false_eq_true, if_false]
      rw [show (c.setState .Connecting).config = c.config from rfl, hconf]
    rw [hopen]
    refine .act found hfound ?_ fun wire => ⟨wire, by rw [hdiscover, hconf]⟩
    refine .act .proceed trivial ?_ fun _ => ⟨_, rfl⟩
    rw [RunPc.endSession, hstop₁, if_neg Bool.false_ne_true]
    exact .refl _ _
  | ok configuration =>
    have hstop₂ : ((c.setState .Connecting).applyConfiguration configuration).stopping = false :=
      (SameControl.applyConfiguration _ configuration).stopping.trans hstop
    refine .act found hfound ?_ fun wire => ⟨wire, by rw [hdiscover, hconf]⟩
    refine .act .proceed trivial ?_ fun _ => ⟨_, rfl⟩
    refine .act .proceed trivial ?_ fun _ => ⟨_, rfl⟩
    rw [hstop₂, if_neg Bool.false_ne_true]
    apply comes_connect hstop₂ hclock
    simp only [Impl.openSession, hstop₁, Bool.false_eq_true, if_false]
    rw [show (c.setState .Connecting).config = c.config from rfl]
    generalize configurationForSession c.config input.discovery = answer at hconf ⊢
    cases hconf
    rfl

theorem comes_timeout {l : Loop} (h : c.stopping = false) :
    Comes (.timeout l) c
      (.close l.backoff { result := .Timeout, receivedValidRecord := l.receivedValidRecord })
      c.countTimeout := by
  refine .act .proceed trivial ?_ fun _ => ⟨_, rfl⟩
  rw [h, if_neg Bool.false_ne_true, RunPc.endSession, h, if_neg Bool.false_ne_true]
  exact .refl _ _

/-- How a record that has been handled continues the session. -/
def recordResult (deadline : TimePoint) : Impl × Except String (Option SessionResult) → LoopResult
  | (c, .error what) => .raised c what
  | (c, .ok (some outcome)) => .ended c { result := outcome, receivedValidRecord := true }
  | (c, .ok none) => .next { impl := c, deadline, receivedValidRecord := true }

theorem comes_afterRecord {deadline : TimePoint} (c : Impl) (outcome : Option SessionResult) :
    Comes (.afterRecord ⟨b, deadline, true⟩ outcome) c
      ((recordResult deadline (c, .ok outcome)).pc b) (recordResult deadline (c, .ok outcome)).impl := by
  cases outcome <;> exact .refl _ _

theorem RunPc.step_observe (deadline : TimePoint) (c : Impl) (record : RawRecord) (receivedAt : TimePoint)
    (wire : Wire) :
    (RunPc.observe ⟨b, deadline, true⟩ record receivedAt).step .proceed c wire =
      some (match c.prepareRecord record receivedAt with
        | (c, .raised what) => (c, wire, .raised what)
        | (c, .done outcome) => (c, wire, .afterRecord ⟨b, deadline, true⟩ outcome)
        | (c, .invoke sample outcome) => (c, wire, .invoke ⟨⟨b, deadline, true⟩, sample, outcome⟩)) := by
  simp only [RunPc.step, RunPc.stepOpen, RunPc.stepLoop]
  generalize c.prepareRecord record receivedAt = prepared
  obtain ⟨c₁, what | outcome | ⟨sample, outcome⟩⟩ := prepared <;> rfl

/-- `handle_record`. -/
theorem comes_handleRecord (deadline : TimePoint) (c : Impl) (record : RawRecord)
    (receivedAt : TimePoint) (result : CallbackResult) :
    Comes (.observe ⟨b, deadline, true⟩ record receivedAt) c
      ((recordResult deadline (c.handleRecord record receivedAt result)).pc b)
      (recordResult deadline (c.handleRecord record receivedAt result)).impl := by
  have hobserve := RunPc.step_observe (b := b) deadline c record receivedAt
  rw [Impl.handleRecord]
  cases hprepare : c.prepareRecord record receivedAt with
  | mk c₁ prepared =>
    cases prepared with
    | raised what =>
      exact .act .proceed trivial (.refl _ _) fun wire => ⟨wire, by rw [hobserve, hprepare]; rfl⟩
    | done outcome =>
      exact .act .proceed trivial (comes_afterRecord c₁ outcome)
        fun wire => ⟨wire, by rw [hobserve, hprepare]⟩
    | invoke sample outcome =>
      refine .act .proceed trivial ?_ fun wire => ⟨wire, by rw [hobserve, hprepare]⟩
      refine .act .proceed trivial ?_ fun _ => ⟨_, rfl⟩
      have hdelivered : Comes (.deliver ⟨⟨b, deadline, true⟩, sample, outcome⟩) c₁
          ((recordResult deadline (c₁.deliverSample sample, .ok outcome)).pc b)
          (recordResult deadline (c₁.deliverSample sample, .ok outcome)).impl := by
        refine .act .proceed trivial ?_ fun _ => ⟨_, rfl⟩
        exact ((comes_afterRecord _ outcome).pass rfl).pass rfl
      cases hcallback : c₁.callback.isSome with
      | false => simpa only [hcallback, Bool.false_eq_true, if_false, Impl.finishRecord] using hdelivered
      | true =>
        simp only [hcallback, if_true]
        cases result with
        | returned => exact .act .returned trivial hdelivered fun _ => ⟨_, rfl⟩
        | threw what =>
          refine .act (.threw what) trivial ?_ fun _ => ⟨_, rfl⟩
          exact .act .proceed trivial (comes_afterRecord _ _) fun _ => ⟨_, rfl⟩

theorem RunPc.step_wellFormed {l : Loop} (c : Impl) (record : RawRecord) (receivedAt : TimePoint)
    (wire : Wire) :
    (RunPc.wellFormed l record).step (.reading receivedAt) c wire =
      some (match checkedDeadline receivedAt c.clearMalformed.config.receiveTimeout with
        | .ok limit => (c.clearMalformed, wire, .observe ⟨l.backoff, limit, true⟩ record receivedAt)
        | .error what => (c.clearMalformed, wire, .raised what)) := by
  simp only [RunPc.step, RunPc.stepOpen, RunPc.stepLoop]
  cases checkedDeadline receivedAt c.clearMalformed.config.receiveTimeout <;> rfl

/-- The branch of the loop that handles a datagram. -/
theorem comes_datagramStep {s : LoopState} {data : List UInt8} {receivedAt : TimePoint}
    {result : CallbackResult} (hclock : 0 < receivedAt) :
    Comes
      (match decodeRecord data with
        | .error _ => .malformed ⟨b, s.deadline, s.receivedValidRecord⟩
        | .ok record => .wellFormed ⟨b, s.deadline, s.receivedValidRecord⟩ record)
      s.impl ((datagramStep s data receivedAt result).pc b)
      (datagramStep s data receivedAt result).impl := by
  unfold datagramStep
  cases decodeRecord data with
  | error what =>
    refine .act .proceed trivial ?_ fun _ => ⟨_, rfl⟩
    by_cases hstorm : s.impl.countMalformed.malformedStorm = true
    · simp only [hstorm, if_true]
      exact .refl _ _
    · simp only [Bool.not_eq_true] at hstorm
      simp only [hstorm, Bool.false_eq_true, if_false]
      exact .refl _ _
  | ok record =>
    simp only
    have hwellFormed :=
      RunPc.step_wellFormed (l := ⟨b, s.deadline, s.receivedValidRecord⟩) s.impl record receivedAt
    cases hlimit : checkedDeadline receivedAt s.impl.clearMalformed.config.receiveTimeout with
    | error what =>
      exact .act (.reading receivedAt) hclock (.refl _ _)
        fun wire => ⟨wire, by rw [hwellFormed, hlimit]; rfl⟩
    | ok limit =>
      refine .act (.reading receivedAt) hclock ?_ fun wire => ⟨wire, by rw [hwellFormed, hlimit]⟩
      have hrecord := comes_handleRecord (b := b) limit s.impl.clearMalformed record receivedAt result
      generalize s.impl.clearMalformed.handleRecord record receivedAt result = handled at hrecord ⊢
      obtain ⟨c₁, what | _ | outcome⟩ := handled <;> exact hrecord

/-- One pass of the receive loop. -/
theorem comes_loopStep {s : LoopState} {p : Pass} (h : s.impl.stopping = false) (hclock : p.Clocked) :
    Comes (.check ⟨b, s.deadline, s.receivedValidRecord⟩) s.impl ((loopStep s p).pc b)
      (loopStep s p).impl := by
  refine .act .proceed trivial ?_ fun _ => ⟨_, rfl⟩
  rw [h, if_neg Bool.false_ne_true]
  refine .act (.reading p.now) hclock.1 ?_ fun _ => ⟨_, rfl⟩
  unfold loopStep
  by_cases hlate : s.deadline ≤ p.now
  · simp only [if_pos hlate]
    exact comes_timeout h
  · simp only [if_neg hlate]
    cases hduration : checkedDuration (Ticks.toSeconds (s.deadline - p.now)) with
    | error what =>
      rw [receive_of_error hduration]
      refine .act .proceed trivial ?_ fun _ => ⟨_, rfl⟩
      rw [RunPc.endSession, h, if_neg Bool.false_ne_true]
      exact .refl _ _
    | ok ticks =>
      cases hreceive : receive (Ticks.toSeconds (s.deadline - p.now)) p.reception with
      | error what =>
        refine .act (.fail what) trivial ?_ fun _ => ⟨_, rfl⟩
        refine .act .proceed trivial ?_ fun _ => ⟨_, rfl⟩
        rw [RunPc.endSession, h, if_neg Bool.false_ne_true]
        exact .refl _ _
      | ok data =>
        refine .act (.received data) trivial ?_ fun _ => ⟨_, rfl⟩
        refine .act .proceed trivial ?_ fun _ => ⟨_, rfl⟩
        rw [h, if_neg Bool.false_ne_true]
        cases data with
        | nil => exact comes_timeout h
        | cons byte data =>
          rw [if_neg (List.cons_ne_nil byte data)]
          exact comes_datagramStep hclock.2

end

/-! ## Sessions in a row -/

/-- The delay that `run` awaits after a session. -/
def SessionOutcome.delay (outcome : SessionOutcome) (c : Impl) (backoff : Seconds) : Seconds :=
  if outcome.receivedValidRecord then c.config.reconnectInitialDelay else backoff

/-- The sessions that the inputs describe have ended and been waited for, each with a reconnect. -/
inductive Sessions (c₀ : Impl) (b₀ : Seconds) : List SessionInput → Impl → Seconds → Prop where
  | nil : Sessions c₀ b₀ [] c₀ b₀
  | snoc {pre : List SessionInput} {c c' : Impl} {b : Seconds} {input : SessionInput}
      {outcome : SessionOutcome} {limit : TimePoint} :
      Sessions c₀ b₀ pre c b → c.Going → input.Clocked → c.receiveSession input = (c', .ok outcome) →
      outcome.result ≠ .Stopped → c'.config.recoveryPolicy ≠ .FailStop →
      checkedDeadline input.backoffAt (outcome.delay c' b) = .ok limit →
      Sessions c₀ b₀ (pre ++ [input]) (c'.closeSession.enterBackoff outcome.withMessage.message)
        (min (outcome.delay c' b * 2) c'.config.reconnectMaxDelay)

section

variable {c c' : Impl} {b : Seconds} {input : SessionInput} {outcome : SessionOutcome}

theorem Impl.Going.receiveSession (h : c.Going) {ended : Except String SessionOutcome}
    (hsession : c.receiveSession input = (c', ended)) : c'.Going := by
  have hsame := SameControl.receiveSession c input
  rw [hsession] at hsame
  exact ⟨hsame.stopping.trans h.1, hsame.faultLatch.trans h.2⟩

theorem Impl.Going.not_over (h : c.Going) : (c.stopping || c.faulted) = false := by
  simp [h.1, Impl.faulted, h.2]

/-- What `run` makes of the end of a session. -/
theorem runLoop_session (h : c.Going) (hsession : c.receiveSession input = (c', .ok outcome))
    (hresult : outcome.result ≠ .Stopped) (rest : List SessionInput) :
    c.runLoop b (input :: rest) =
      if c'.config.recoveryPolicy = .FailStop then
        (c'.closeSession.setFault (faultFor outcome.result) outcome.withMessage.message, [])
      else
        match checkedDeadline input.backoffAt (outcome.delay c' b) with
        | .error what =>
          ((c'.closeSession.enterBackoff outcome.withMessage.message).setFault .Socket what, [])
        | .ok _ =>
          let (c, awaited) := (c'.closeSession.enterBackoff outcome.withMessage.message).runLoop
            (min (outcome.delay c' b * 2) c'.config.reconnectMaxDelay) rest
          (c, outcome.delay c' b :: awaited) := by
  have hgoing := h.receiveSession hsession
  have hvalid : outcome.withMessage.receivedValidRecord = outcome.receivedValidRecord := by
    unfold SessionOutcome.withMessage
    split_ifs <;> rfl
  have hstop : c'.closeSession.stopping = false := hgoing.1
  have hstop' : ∀ message, (c'.closeSession.enterBackoff message).stopping = false := fun _ => hgoing.1
  have hconfig : c'.closeSession.config = c'.config := rfl
  rw [Impl.runLoop, h.not_over]
  simp only [Bool.false_eq_true, if_false, hsession, SessionOutcome.withMessage_result, hresult, ne_eq,
    not_false_eq_true, true_and, false_or, hstop, hstop', hvalid, hconfig, SessionOutcome.delay]
  rfl

theorem runLoop_raised (h : c.Going) {what : String}
    (hsession : c.receiveSession input = (c', .error what)) (rest : List SessionInput) :
    c.runLoop b (input :: rest) = (c'.setFault .Socket what, []) := by
  have hstop := (h.receiveSession hsession).1
  rw [Impl.runLoop, h.not_over]
  simp only [Bool.false_eq_true, if_false, hsession, hstop]

/-- A run goes on from where its first sessions have led. -/
theorem Sessions.runLoop {pre : List SessionInput} {c₀ : Impl} {b₀ : Seconds}
    (h : Sessions c₀ b₀ pre c b) (rest : List SessionInput) :
    (c₀.runLoop b₀ (pre ++ rest)).1 = (c.runLoop b rest).1 := by
  induction h generalizing rest with
  | nil => rfl
  | snoc _ hgoing _ hsession hresult hpolicy hlimit ih =>
    rw [List.append_assoc, List.singleton_append, ih, runLoop_session hgoing hsession hresult,
      if_neg hpolicy, hlimit]

theorem Impl.Going.enterBackoff (h : c.Going) (message : String) :
    (c.closeSession.enterBackoff message).Going := h

theorem Sessions.going {pre : List SessionInput} {c₀ : Impl} {b₀ : Seconds} (h₀ : c₀.Going)
    (h : Sessions c₀ b₀ pre c b) : c.Going := by
  cases h with
  | nil => exact h₀
  | snoc _ hgoing _ hsession => exact (hgoing.receiveSession hsession).enterBackoff _

end

section

variable {c c' : Impl} {b : Seconds} {input : SessionInput} {outcome : SessionOutcome}

/-- The passes of a session that stays open. -/
theorem comes_accepts {s s' : LoopState} {ps : List Pass} (haccepts : Accepts s ps s')
    (hstop : s.impl.stopping = false) (hclock : ∀ p ∈ ps, p.Clocked) :
    Comes (.check ⟨b, s.deadline, s.receivedValidRecord⟩) s.impl
      (.check ⟨b, s'.deadline, s'.receivedValidRecord⟩) s'.impl := by
  induction haccepts with
  | nil s => exact .refl _ _
  | @cons s s₁ s' p ps hstep _ ih =>
    have hfirst := comes_loopStep (b := b) hstop (hclock p List.mem_cons_self)
    have hsame := SameControl.loopStep s p
    rw [hstep] at hfirst hsame
    exact hfirst.trans (ih (hsame.stopping.trans hstop) fun q hq => hclock q (List.mem_cons_of_mem p hq))

/-- A session, up to where it is still open. -/
theorem comes_open {s₀ s : LoopState} {ps : List Pass} (h : c.Going) (hopened : 0 < input.openedAt)
    (hclock : ∀ p ∈ ps, p.Clocked) (hopen : c.openSession input = .next s₀)
    (haccepts : Accepts s₀ ps s) :
    s.impl.stopping = false ∧
      Comes (.loop b) c (.check ⟨b, s.deadline, s.receivedValidRecord⟩) s.impl := by
  have hfirst := comes_openSession (b := b) h hopened
  have hsame := SameControl.openSession c input
  rw [hopen] at hfirst hsame
  have hstop : s₀.impl.stopping = false := hsame.stopping.trans h.1
  exact ⟨(SameControl.accepts haccepts).stopping.trans hstop,
    hfirst.trans (comes_accepts haccepts hstop hclock)⟩

/-- Where the worker is when `receive_session` has ended. -/
def endPc (b : Seconds) : Except String SessionOutcome → RunPc
  | .ok outcome => .close b outcome
  | .error what => .raised what

/-- `receive_session`, to its end. -/
theorem comes_receiveSession {ended : Except String SessionOutcome} (h : c.Going)
    (hclock : input.Clocked) (hsession : c.receiveSession input = (c', ended))
    (hresult : ∀ outcome, ended = .ok outcome → outcome.result ≠ .Stopped) :
    Comes (.loop b) c (endPc b ended) c' := by
  rcases receiveSession_cases hsession with (⟨o, rfl, hopen⟩ | ⟨what, rfl, hopen⟩) |
    ⟨s₀, s, hopen, haccepts, rfl, rfl⟩ | ⟨pre, s, p, hin, hlast⟩
  · have hfirst := comes_openSession (b := b) h hclock.openedAt
    rwa [hopen] at hfirst
  · have hfirst := comes_openSession (b := b) h hclock.openedAt
    rwa [hopen] at hfirst
  · exact absurd rfl (hresult _ rfl)
  · obtain ⟨⟨rest, hpasses⟩, s₀, hopen, haccepts⟩ := hin
    have hmem : ∀ q ∈ pre ++ p :: rest, q.Clocked := hpasses ▸ hclock.passes
    obtain ⟨hstop, hfirst⟩ := comes_open (b := b) h hclock.openedAt
      (fun q hq => hmem q (List.mem_append_left _ hq)) hopen haccepts
    have hpass := comes_loopStep (b := b) hstop (hmem p (by simp))
    rcases hlast with ⟨o, rfl, heq⟩ | ⟨what, rfl, heq⟩ <;> rw [heq] at hpass <;>
      exact hfirst.trans hpass

/-- `run` between two sessions: the delay is awaited, or its deadline is refused. -/
theorem comes_reconnect (h : c.Going) (hresult : outcome.result ≠ .Stopped)
    (hpolicy : c.config.recoveryPolicy ≠ .FailStop) (hclock : 0 < input.backoffAt) :
    Comes (.close b outcome) c
      (match checkedDeadline input.backoffAt (outcome.delay c b) with
        | .ok _ => .loop (min (outcome.delay c b * 2) c.config.reconnectMaxDelay)
        | .error what => .raised what)
      (c.closeSession.enterBackoff outcome.withMessage.message) := by
  have hvalid : outcome.withMessage.receivedValidRecord = outcome.receivedValidRecord := by
    unfold SessionOutcome.withMessage
    split_ifs <;> rfl
  have hdelay : (if outcome.withMessage.receivedValidRecord then c.closeSession.config.reconnectInitialDelay
      else b) = outcome.delay c b := by
    rw [hvalid]
    rfl
  refine .act .proceed trivial ?_ fun _ => ⟨_, rfl⟩
  refine .act .proceed trivial ?_ fun _ => ⟨_, rfl⟩
  rw [if_neg (fun hboth => hpolicy hboth.2), if_neg (by
    rw [SessionOutcome.withMessage_result, not_or]
    exact ⟨hresult, by simp [show c.closeSession.stopping = false from h.1]⟩), hdelay]
  refine .act .proceed trivial ?_ fun _ => ⟨_, rfl⟩
  have hlock : ∀ wire, (RunPc.backoffLock (outcome.delay c b)).step (.reading input.backoffAt)
      (c.closeSession.enterBackoff outcome.withMessage.message) wire =
      some (match checkedDeadline input.backoffAt (outcome.delay c b) with
        | .ok _ => (c.closeSession.enterBackoff outcome.withMessage.message, wire,
            .backoffWait (outcome.delay c b))
        | .error what => (c.closeSession.enterBackoff outcome.withMessage.message, wire, .raised what)) := by
    intro wire
    simp only [RunPc.step, RunPc.stepOpen, RunPc.stepLoop, RunPc.stepClose]
    cases checkedDeadline input.backoffAt (outcome.delay c b) <;> rfl
  cases hlimit : checkedDeadline input.backoffAt (outcome.delay c b) with
  | error what =>
    exact .act (.reading input.backoffAt) hclock (.refl _ _) fun wire => ⟨wire, by rw [hlock, hlimit]⟩
  | ok limit =>
    refine .act (.reading input.backoffAt) hclock ?_ fun wire => ⟨wire, by rw [hlock, hlimit]⟩
    refine Comes.pass ?_ rfl
    exact .act .proceed trivial (.refl _ _) fun _ => ⟨_, rfl⟩

/-- Sessions in a row. -/
theorem comes_sessions {c₀ : Impl} {b₀ : Seconds} {pre : List SessionInput}
    (h : Sessions c₀ b₀ pre c b) : Comes (.loop b₀) c₀ (.loop b) c := by
  induction h with
  | nil => exact .refl _ _
  | @snoc _ _ _ b _ _ _ _ hgoing hclock hsession hresult hpolicy hlimit ih =>
    have hend := comes_receiveSession (b := b) hgoing hclock hsession fun o ho => by
      cases ho
      exact hresult
    have hnext := comes_reconnect (b := b) (hgoing.receiveSession hsession) hresult hpolicy
      hclock.backoffAt
    rw [hlimit] at hnext
    exact ih.trans (hend.trans hnext)

/-- `set_fault` and its notifies. -/
theorem comes_publish (code : FaultCode) (message : String) :
    Comes (.publish code message) c .finishClose (c.setFault code message) := by
  refine .act .proceed trivial ?_ fun _ => ⟨_, rfl⟩
  exact ((Comes.refl _ _).pass rfl).pass rfl

theorem comes_raised {what : String} (h : c.stopping = false) :
    Comes (.raised what) c .finishClose (c.setFault .Socket what) := by
  refine .act .proceed trivial ?_ fun _ => ⟨_, rfl⟩
  rw [h, if_neg Bool.false_ne_true]
  exact comes_publish .Socket what

theorem Impl.closeSession_faulted (h : c.faultLatch ≠ .None) : c.closeSession.faulted = true := by
  show (c.faultLatch != .None) = true
  rw [bne_iff_ne]
  exact h

theorem finishSession_of_fault (h : c.faultLatch ≠ .None) :
    c.finishSession = { c.closeSession with workerExited := true } := by
  rw [Impl.finishSession]
  exact if_pos (Impl.closeSession_faulted h)

/-- `finish_session`, after a fault. -/
theorem comes_finish (h : c.faultLatch ≠ .None) : Comes .finishClose c .ended c.finishSession := by
  rw [finishSession_of_fault h]
  refine .act .proceed trivial ?_ fun _ => ⟨_, rfl⟩
  refine .act .proceed trivial ?_ fun _ => ⟨_, rfl⟩
  refine .act .proceed trivial ?_ fun _ => ⟨_, rfl⟩
  rw [if_pos (show ({ c.closeSession with workerExited := true } : Impl).faulted = true from
    Impl.closeSession_faulted h)]
  exact ((Comes.refl _ _).pass rfl).pass rfl

/-- The last session of a run that ends with a fault. -/
theorem comes_lastSession (h : c.Going) (hclock : input.Clocked)
    (hfault : (c.runLoop b [input]).1.faultLatch ≠ .None) :
    Comes (.loop b) c .finishClose (c.runLoop b [input]).1 := by
  cases hsession : c.receiveSession input with
  | mk c' ended =>
    have hgoing := h.receiveSession hsession
    cases ended with
    | error what =>
      rw [runLoop_raised h hsession]
      exact (comes_receiveSession h hclock hsession fun o ho => by cases ho).trans
        (comes_raised hgoing.1)
    | ok outcome =>
      by_cases hresult : outcome.result = .Stopped
      · -- a session that was stopped leaves no fault
        rw [Impl.runLoop, h.not_over] at hfault
        simp only [Bool.false_eq_true, if_false, hsession, SessionOutcome.withMessage_result, hresult,
          ne_eq, not_true_eq_false, false_and, true_or, if_true] at hfault
        exact absurd hgoing.2 hfault
      have hend := comes_receiveSession (b := b) h hclock hsession fun o ho => by
        cases ho
        exact hresult
      refine hend.trans ?_
      rw [runLoop_session h hsession hresult] at hfault ⊢
      by_cases hpolicy : c'.config.recoveryPolicy = .FailStop
      · rw [if_pos hpolicy]
        refine .act .proceed trivial ?_ fun _ => ⟨_, rfl⟩
        refine .act .proceed trivial ?_ fun _ => ⟨_, rfl⟩
        rw [if_pos (⟨by rwa [SessionOutcome.withMessage_result], hpolicy⟩ :
            outcome.withMessage.result ≠ .Stopped ∧ c'.closeSession.config.recoveryPolicy = .FailStop),
          SessionOutcome.withMessage_result]
        exact comes_publish _ _
      · have hnext := comes_reconnect (b := b) hgoing hresult hpolicy hclock.backoffAt
        rw [if_neg hpolicy] at hfault ⊢
        cases hlimit : checkedDeadline input.backoffAt (outcome.delay c' b) with
        | error what =>
          rw [hlimit] at hnext
          exact hnext.trans (comes_raised (hgoing.enterBackoff _).1)
        | ok limit =>
          rw [hlimit] at hfault
          exact absurd (hgoing.enterBackoff _).2 hfault

end

end NetFT.Client
