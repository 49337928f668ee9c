/-
# NetFT.Client.Steps — what one step of the client can do.

For every function of `NetFT.Client.Machine` that gives the actions of a thread, one lemma says which
fields an action can change and where it can lead.  Invariants are proved from these lemmas; the
actions themselves are not unfolded again.

* `Pc.GoesOn`: where a thread goes on from a notify, and from a wait that is over.
* `SameLifecycle` is the frame of nearly every action of the worker: it leaves the lifecycle, the fault
  latch and the generations alone.
-/
import NetFT.Client.Machine

namespace NetFT.Client

set_option autoImplicit false

open Library.Threads (Tid Effect Instr Program)

/-! ## Instructions -/

/-- The actions are those of the control points. -/
theorem Pc.instr_act {p : Pc} {takes : List Mutex} {f : Action} (h : p.instr = .act takes f) :
    takes = p.takes ∧ f = p.action := by
  unfold instr at h
  split at h <;> cases h
  exact ⟨rfl, rfl⟩

/-- Where the waits are. -/
theorem Pc.instr_wait {p q : Pc} {c : CondVar} {ready : Shared → Bool} {timeout : Option Pc}
    (h : p.instr = .wait c ready q timeout) :
    (∃ ctx callback, p = .start ctx callback .waitJoining ∧ q = .start ctx callback .inspect ∧
      c = .lifecycle ∧ (∀ s, ready s = !s.impl.joining) ∧ timeout = none) ∨
    (∃ ctx callback, p = .start ctx callback .waitExited ∧ q = .start ctx callback .lock ∧
      c = .lifecycle ∧ (∀ s, ready s = (s.impl.workerExited || !s.impl.faulted)) ∧ timeout = none) ∨
    (∃ ctx caller, p = .stop ctx caller .waitJoining ∧ q = .stop ctx caller .lock ∧
      c = .lifecycle ∧ (∀ s, ready s = !s.impl.joining) ∧ timeout = none) ∨
    (∃ ctx captured, p = .waitForFirstSample ctx (.waiting captured) ∧
      q = .waitForFirstSample ctx (.final captured) ∧ c = .firstSample ∧
      (∀ s, ready s = s.impl.firstSampleReady captured) ∧ timeout = some q) ∨
    ∃ b, p = .run (.backoffWait b) ∧ q = .run (.backoffDone b) ∧ c = .firstSample ∧
      (∀ s, ready s = s.impl.stopping) ∧ timeout = some q := by
  unfold instr at h
  split at h <;> cases h
  · exact .inl ⟨_, _, rfl, rfl, rfl, fun _ => rfl, rfl⟩
  · exact .inr (.inl ⟨_, _, rfl, rfl, rfl, fun _ => rfl, rfl⟩)
  · exact .inr (.inr (.inl ⟨_, _, rfl, rfl, rfl, fun _ => rfl, rfl⟩))
  · exact .inr (.inr (.inr (.inl ⟨_, _, rfl, rfl, rfl, fun _ => rfl, rfl⟩)))
  · exact .inr (.inr (.inr (.inr ⟨_, rfl, rfl, rfl, fun _ => rfl, rfl⟩)))

/-- Where the joins are. -/
theorem Pc.instr_join {p q : Pc} {w : Tid} {f : Tid → Shared → Shared} (h : p.instr = .join w f q) :
    f = recordJoin w ∧
      ((∃ ctx callback, p = .start ctx callback (.join w) ∧ q = .start ctx callback .reaped) ∨
        ∃ ctx caller, p = .stop ctx caller (.join w) ∧ q = .stop ctx caller .relock) := by
  unfold instr at h
  split at h <;> cases h
  · exact ⟨rfl, .inl ⟨_, _, rfl, rfl⟩⟩
  · exact ⟨rfl, .inr ⟨_, _, rfl, rfl⟩⟩

/-- Where a thread goes on after a notify, or when a wait is over, and what a wait without a timeout has
waited for. -/
inductive Pc.GoesOn (s : Shared) : Pc → Pc → Prop
  | startJoining (ctx : Ctx) (callback : SampleCallback) :
      s.impl.joining = false → GoesOn s (.start ctx callback .waitJoining) (.start ctx callback .inspect)
  | startExited (ctx : Ctx) (callback : SampleCallback) :
      (s.impl.workerExited || !s.impl.faulted) = true →
      GoesOn s (.start ctx callback .waitExited) (.start ctx callback .lock)
  | startReaped (ctx : Ctx) (callback : SampleCallback) :
      GoesOn s (.start ctx callback .reapedNotify) (.start ctx callback .lock)
  | startFirst (ctx : Ctx) (callback : SampleCallback) :
      GoesOn s (.start ctx callback .notifyFirst) (.start ctx callback .notifyLifecycle)
  | startLifecycle (ctx : Ctx) (callback : SampleCallback) :
      GoesOn s (.start ctx callback .notifyLifecycle) (.start ctx callback .returned)
  | rollbackFirst (ctx : Ctx) (callback : SampleCallback) :
      GoesOn s (.start ctx callback .rollbackNotifyFirst) (.start ctx callback .rollbackNotifyLifecycle)
  | rollbackLifecycle (ctx : Ctx) (callback : SampleCallback) :
      GoesOn s (.start ctx callback .rollbackNotifyLifecycle) (.start ctx callback .threw)
  | stopFirst (ctx : Ctx) (caller : Caller) :
      GoesOn s (.stop ctx caller .notifyFirst) (.stop ctx caller .notifyLifecycle)
  | stopLifecycle (ctx : Ctx) (caller : Caller) :
      GoesOn s (.stop ctx caller .notifyLifecycle) (.stop ctx caller .command)
  | stopJoining (ctx : Ctx) (caller : Caller) :
      s.impl.joining = false → GoesOn s (.stop ctx caller .waitJoining) (.stop ctx caller .lock)
  | joinedLifecycle (ctx : Ctx) (caller : Caller) :
      GoesOn s (.stop ctx caller .joinedNotifyLifecycle) (.stop ctx caller .joinedNotifyFirst)
  | joinedFirst (ctx : Ctx) (caller : Caller) :
      GoesOn s (.stop ctx caller .joinedNotifyFirst) (.stop ctx caller .returned)
  | waited (ctx : Ctx) (captured : Nat) :
      GoesOn s (.waitForFirstSample ctx (.waiting captured)) (.waitForFirstSample ctx (.final captured))
  | deliveredFirst (k : Invocation) : GoesOn s (.run (.deliveredFirst k)) (.run (.deliveredLifecycle k))
  | deliveredLifecycle (k : Invocation) :
      GoesOn s (.run (.deliveredLifecycle k)) (.run (.afterRecord k.loop k.outcome))
  | backedOff (b : Seconds) : GoesOn s (.run (.backoffWait b)) (.run (.backoffDone b))
  | publishFirst : GoesOn s (.run .publishNotifyFirst) (.run .publishNotifyLifecycle)
  | publishLifecycle : GoesOn s (.run .publishNotifyLifecycle) (.run .finishClose)
  | finishFirst : GoesOn s (.run .finishNotifyFirst) (.run .finishNotifyLifecycle)
  | finishLifecycle : GoesOn s (.run .finishNotifyLifecycle) (.run .ended)

/-- A wait that passes goes on in one of these ways. -/
theorem goesOn_of_passes {p q : Pc} {s : Shared} (h : program.Passes p q s) : p.GoesOn s q := by
  cases h with
  | notify hinstr =>
    change p.instr = _ at hinstr
    unfold Pc.instr at hinstr
    split at hinstr <;> cases hinstr <;> constructor
  | wait hinstr hready =>
    rcases Pc.instr_wait hinstr with ⟨_, _, rfl, rfl, -, heq, -⟩ | ⟨_, _, rfl, rfl, -, heq, -⟩ |
      ⟨_, _, rfl, rfl, -, heq, -⟩ | ⟨_, _, rfl, rfl, -⟩ | ⟨_, rfl, rfl, -⟩
    · exact .startJoining _ _ (by rw [heq, Bool.not_eq_true'] at hready; exact hready)
    · exact .startExited _ _ ((heq s).symm.trans hready)
    · exact .stopJoining _ _ (by rw [heq, Bool.not_eq_true'] at hready; exact hready)
    · exact .waited _ _
    · exact .backedOff _
  | expire hinstr =>
    rcases Pc.instr_wait hinstr with ⟨_, _, -, -, -, -, h⟩ | ⟨_, _, -, -, -, -, h⟩ |
      ⟨_, _, -, -, -, -, h⟩ | ⟨_, _, rfl, rfl, -, -, h⟩ | ⟨_, rfl, rfl, -, -, h⟩ <;> cases h
    · exact .waited _ _
    · exact .backedOff _

/-! ## The worker -/

/-- The fields that the lifecycle, the waits and the fault latch depend on stay as they are. -/
structure SameLifecycle (c c' : Impl) : Prop where
  config : c'.config = c.config
  worker : c'.worker = c.worker
  activeWorkerId : c'.activeWorkerId = c.activeWorkerId
  joining : c'.joining = c.joining
  stopping : c'.stopping = c.stopping
  workerExited : c'.workerExited = c.workerExited
  faultLatch : c'.faultLatch = c.faultLatch
  generation : c'.generation = c.generation
  deliveredGeneration : c'.deliveredGeneration = c.deliveredGeneration

namespace SameLifecycle

theorem refl (c : Impl) : SameLifecycle c c := ⟨rfl, rfl, rfl, rfl, rfl, rfl, rfl, rfl, rfl⟩

theorem applyConfiguration (c : Impl) (configuration : SensorConfiguration) :
    SameLifecycle c (c.applyConfiguration configuration) := by
  obtain ⟨_, _, h⟩ := c.applyConfiguration_frame configuration
  rw [h]
  exact ⟨rfl, rfl, rfl, rfl, rfl, rfl, rfl, rfl, rfl⟩

theorem prepareRecord (c : Impl) (record : RawRecord) (receivedAt : TimePoint) :
    SameLifecycle c (c.prepareRecord record receivedAt).1 := by
  obtain ⟨_, _, _, _, _, h⟩ := c.observeRecord_frame record receivedAt
  rw [c.prepareRecord_fst, h]
  exact ⟨rfl, rfl, rfl, rfl, rfl, rfl, rfl, rfl, rfl⟩

end SameLifecycle

namespace RunPc

variable {pc pc' : RunPc} {choice : Choice} {c c' : Impl} {wire wire' : Wire}

theorem stepOpen_frame (h : pc.stepOpen choice c wire = some (c', wire', pc')) :
    SameLifecycle c c' := by
  have happly := SameLifecycle.applyConfiguration c
  cases pc <;> simp only [stepOpen] at h <;>
    grind [SameLifecycle, Impl.setState, Impl.connectTransport, Impl.setSessionStarted, Impl.resetSequences]

theorem stepLoop_frame (h : pc.stepLoop choice c = some (c', pc')) (hdeliver : ∀ k, pc ≠ .deliver k) :
    SameLifecycle c c' := by
  have hprep := SameLifecycle.prepareRecord c
  cases pc <;> simp only [stepLoop] at h <;>
    grind [SameLifecycle, Impl.countTimeout, Impl.countMalformed, Impl.clearMalformed,
      Impl.recordCallbackError]

theorem stepClose_frame (h : pc.stepClose choice c wire = some (c', wire', pc'))
    (hpublish : ∀ code message, pc ≠ .publish code message) (hexited : pc ≠ .finishExited) :
    SameLifecycle c c' := by
  cases pc <;> simp only [stepClose] at h <;>
    grind [SameLifecycle, Impl.closeSession, Impl.closeTransport, Impl.setSessionStarted,
      Impl.enterBackoff, Impl.setState]

/-! ## Where the worker is in its life -/

/-- The worker runs, has said that it exits, or has returned from `run`. -/
inductive Stage where
  | live | exiting | ended
  deriving DecidableEq, Repr

def stage : RunPc → Stage
  | .finishFaulted | .finishState | .finishNotifyFirst | .finishNotifyLifecycle => .exiting
  | .ended => .ended
  | _ => .live

theorem afterRecord_stage (l : Loop) (outcome : Option SessionResult) :
    (afterRecord l outcome).stage = .live := by
  cases outcome <;> rfl

theorem step_stage (h : pc.step choice c wire = some (c', wire', pc')) (hexited : pc ≠ .finishExited) :
    pc'.stage = pc.stage := by
  cases pc <;> simp only [step, stepOpen, stepLoop, stepClose] at h <;>
    grind [stage, endSession, afterRecord_stage]

/-- Most steps of the worker leave the lifecycle and the latch alone. -/
theorem step_frame (h : pc.step choice c wire = some (c', wire', pc')) (hdeliver : ∀ k, pc ≠ .deliver k)
    (hpublish : ∀ code message, pc ≠ .publish code message) (hexited : pc ≠ .finishExited) :
    SameLifecycle c c' := by
  simp only [step, Option.or_eq_some_iff, Option.map_eq_some_iff] at h
  rcases h with hopen | ⟨-, ⟨⟨c'', pc''⟩, hloop, heq⟩ | ⟨-, hclose⟩⟩
  · exact stepOpen_frame hopen
  · obtain ⟨rfl, -, -⟩ : c'' = c' ∧ wire = wire' ∧ pc'' = pc' := by simpa using heq
    exact stepLoop_frame hloop hdeliver
  · exact stepClose_frame hclose hpublish hexited

/-- Only the end of the worker's life touches the handles. -/
theorem step_handles (h : pc.step choice c wire = some (c', wire', pc')) (hexited : pc ≠ .finishExited) :
    c'.worker = c.worker ∧ c'.activeWorkerId = c.activeWorkerId ∧ c'.joining = c.joining ∧
      c'.workerExited = c.workerExited := by
  cases pc with
  | deliver k =>
    cases h
    exact ⟨rfl, rfl, rfl, rfl⟩
  | publish code message =>
    cases h
    unfold Impl.setFault Impl.publishFault
    split_ifs <;> exact ⟨rfl, rfl, rfl, rfl⟩
  | _ =>
    have hframe := step_frame h (by simp) (by simp) hexited
    exact ⟨hframe.worker, hframe.activeWorkerId, hframe.joining, hframe.workerExited⟩

end RunPc

/-! ## Actions -/

section

variable {p : Pc} {t : Tid} {choice : Choice} {s : Shared} {e : Effect Shared Pc}

/-- In the callback the worker makes calls; everywhere else it takes a step of `run`. -/
theorem runStep_cases {pc : RunPc} (h : runStep pc t choice s = some e) :
    (∃ k call, pc = .inCallback k ∧ beginCall (.callback k) t call s = some e) ∨
      ∃ impl sessions next, pc.step choice s.impl s.sessions = some (impl, sessions, next) ∧
        e = ⟨{ s with impl, sessions }, .run next, none⟩ := by
  unfold runStep at h
  split at h
  · exact .inl ⟨_, _, rfl, h⟩
  · simp only [Option.map_eq_some_iff, Prod.exists] at h
    obtain ⟨impl, sessions, next, hstep, rfl⟩ := h
    exact .inr ⟨impl, sessions, next, hstep, rfl⟩

theorem beginCall_spawned {ctx : Ctx} {call : Call} (h : beginCall ctx t call s = some e) :
    e.spawned = none ∧ e.shared.created = s.created := by
  cases call <;> grind [beginCall]

/-- A call begins without touching the client. -/
theorem beginCall_impl {ctx : Ctx} {call : Call} (h : beginCall ctx t call s = some e) :
    e.shared.impl = s.impl := by
  cases call <;> grind [beginCall]

/-- `bias`, `wait_for_first_sample`, the observers and a destruction, and what lies between calls. -/
def Pc.isMinor : Pc → Bool
  | .start _ _ _ | .stop _ _ _ | .run _ => false
  | _ => true

/-- There the client is written at two points. -/
theorem action_impl (h : p.action t choice s = some e) (hp : p.isMinor = true) :
    e.shared.impl = s.impl ∨ (∃ ctx, p = .bias ctx .reset) ∧ e.shared.impl = s.impl.resetRdtSequence ∨
      ∃ now, (∃ ctx, p = .query ctx (.health now)) ∧ e.shared.impl = (s.impl.healthAt now).1 := by
  have hleave : (s.leave t).impl = s.impl := rfl
  cases p with
  | start | stop | run => cases hp
  | bias ctx pc =>
    cases pc with
    | reset =>
      cases h
      exact .inr (.inl ⟨⟨ctx, rfl⟩, rfl⟩)
    | _ =>
      simp only [Pc.action, biasStep] at h
      grind
  | waitForFirstSample ctx pc => cases pc <;> simp only [Pc.action, waitStep] at h <;> grind
  | query ctx q =>
    cases q with
    | health now =>
      cases h
      exact .inr (.inr ⟨now, ⟨ctx, rfl⟩, rfl⟩)
    | latestSample | faultCode =>
      cases h
      exact .inl rfl
  | destroy ctx pc => cases pc <;> cases h <;> exact .inl rfl
  | outside =>
    simp only [Pc.action, outsideStep] at h
    split at h
    · exact .inl (beginCall_impl h)
    · cases h
  | deferred =>
    simp only [Pc.action, deferredStep] at h
    split_ifs at h
    cases h
    exact .inl rfl

/-- Only `start` creates a thread. -/
theorem action_spawned (h : p.action t choice s = some e)
    (hcreate : ∀ ctx callback saved, p ≠ .start ctx callback (.create saved)) :
    e.spawned = none ∧ e.shared.created = s.created := by
  have hcall := @beginCall_spawned
  have hleave : (s.leave t).created = s.created := rfl
  cases p with
  | start ctx callback pc =>
    cases pc with
    | create saved => exact absurd rfl (hcreate ctx callback saved)
    | _ =>
      simp only [Pc.action, startStep] at h
      grind
  | stop ctx caller pc => cases pc <;> cases caller <;> simp only [Pc.action, stopStep] at h <;> grind
  | bias ctx pc => cases pc <;> simp only [Pc.action, biasStep] at h <;> grind
  | waitForFirstSample ctx pc => cases pc <;> simp only [Pc.action, waitStep] at h <;> grind
  | query ctx q => cases q <;> simp only [Pc.action, queryStep] at h <;> grind
  | destroy ctx pc => cases pc <;> simp only [Pc.action, destroyStep] at h <;> grind
  | run pc =>
    rcases runStep_cases h with ⟨k, call, -, hcall⟩ | ⟨impl, sessions, next, -, rfl⟩
    · exact beginCall_spawned hcall
    · exact ⟨rfl, rfl⟩
  | outside => simp only [Pc.action, outsideStep] at h; grind
  | deferred => simp only [Pc.action, deferredStep] at h; grind

/-- The thread that `start` creates is the worker, at the beginning of `run`. -/
theorem create_cases {ctx : Ctx} {callback : SampleCallback} {saved : Saved}
    (h : (Pc.start ctx callback (.create saved)).action t choice s = some e) :
    (∃ w,
      e =
        { shared :=
            { s with
              impl := { s.impl with worker := some w, activeWorkerId := some w }
              created := w :: s.created }
          next := .start ctx callback .notifyFirst
          spawned := some (w, .run (.loop s.impl.config.reconnectInitialDelay)) }) ∨
      e = ⟨s, .start ctx callback (.rollbackStopping saved), none⟩ := by
  simp only [Pc.action, startStep] at h
  split at h <;> cases h
  · exact .inl ⟨_, rfl⟩
  · exact .inr rfl

/-- A thread that is started begins `run`. -/
theorem spawned_run {w : Tid} {entry : Pc} (h : p.action t choice s = some e)
    (hspawned : e.spawned = some (w, entry)) :
    entry = .run (.loop s.impl.config.reconnectInitialDelay) := by
  by_cases hcreate : ∃ ctx callback saved, p = .start ctx callback (.create saved)
  · obtain ⟨ctx, callback, saved, rfl⟩ := hcreate
    rcases create_cases h with ⟨w, rfl⟩ | rfl
    · simp only [Option.some.injEq, Prod.mk.injEq] at hspawned
      exact hspawned.2.symm
    · cases hspawned
  · have hnone := action_spawned h fun ctx callback saved heq => hcreate ⟨ctx, callback, saved, heq⟩
    simp [hnone.1] at hspawned

end

/-! ## Calls keep their context -/

/-- Where the call of a thread was made; a worker in its callback counts as a call. -/
def Pc.ctx : Pc → Ctx
  | .outside => .outside
  | .deferred => .deferred
  | .start ctx _ _ | .stop ctx _ _ | .bias ctx _ | .waitForFirstSample ctx _ | .query ctx _
  | .destroy ctx _ => ctx
  | .run (.inCallback k) => .callback k
  | .run _ => .outside

/-- The thread runs code of the user. -/
def Pc.isCall : Pc → Bool
  | .run (.inCallback _) => true
  | .run _ => false
  | _ => true

@[simp] theorem Ctx.resume_ctx (ctx : Ctx) : ctx.resume.ctx = ctx := by cases ctx <;> rfl

@[simp] theorem Ctx.resume_isCall (ctx : Ctx) : ctx.resume.isCall = true := by cases ctx <;> rfl

section

variable {p q : Pc} {t : Tid} {choice : Choice} {s : Shared} {e : Effect Shared Pc}

theorem beginCall_ctx {ctx : Ctx} {call : Call} (h : beginCall ctx t call s = some e) :
    e.next.ctx = ctx ∧ e.next.isCall = true := by
  cases call <;> simp only [beginCall] at h <;> grind [Pc.ctx, Pc.isCall]

/-- A call goes on or returns. -/
theorem action_ctx (h : p.action t choice s = some e) (hrun : ∀ pc, p ≠ .run pc) :
    e.next.ctx = p.ctx ∧ e.next.isCall = true := by
  have hresume := Ctx.resume_ctx
  have hresume' := Ctx.resume_isCall
  cases p with
  | start ctx callback pc =>
    cases pc <;> simp only [Pc.action, startStep] at h <;> grind [Pc.ctx, Pc.isCall]
  | stop ctx caller pc =>
    cases pc <;> cases caller <;> simp only [Pc.action, stopStep] at h <;> grind [Pc.ctx, Pc.isCall]
  | bias ctx pc => cases pc <;> simp only [Pc.action, biasStep] at h <;> grind [Pc.ctx, Pc.isCall]
  | waitForFirstSample ctx pc =>
    cases pc <;> simp only [Pc.action, waitStep] at h <;> grind [Pc.ctx, Pc.isCall]
  | query ctx q => cases q <;> cases h <;> exact ⟨hresume ctx, hresume' ctx⟩
  | destroy ctx pc =>
    cases pc <;> simp only [Pc.action, destroyStep] at h <;> grind [Pc.ctx, Pc.isCall]
  | run pc => exact absurd rfl (hrun pc)
  | outside =>
    simp only [Pc.action, outsideStep] at h
    split at h
    · exact beginCall_ctx h
    · cases h
  | deferred =>
    simp only [Pc.action, deferredStep] at h
    split_ifs at h
    cases h
    exact ⟨rfl, rfl⟩

end

/-! ## Steps that are no actions -/

section

variable {s s' : System} {i : Input}

/-- A notify, a wait or a join leaves the client and the wire alone. -/
theorem shared_of_not_act (hstep : Step s i s')
    (hact : ¬ ∃ takes f, (s.threads i.tid).pc.instr = .act takes f) :
    s'.shared.impl = s.shared.impl ∧ s'.shared.sessions = s.shared.sessions := by
  rcases Program.step_shared hstep with hsame | ⟨takes, f, _, _, hinstr, -⟩ |
    ⟨child, f, q, hinstr, hshared⟩
  · rw [hsame]
    exact ⟨rfl, rfl⟩
  · exact absurd ⟨takes, f, hinstr⟩ hact
  · obtain ⟨rfl, -⟩ := Pc.instr_join hinstr
    rw [hshared]
    exact ⟨rfl, rfl⟩

/-- What notifies, waits and joins keep of a control point, such a step keeps of every thread. -/
theorem point_of_not_act {P : Pc → Prop} (hstep : Step s i s')
    (hact : ¬ ∃ takes f, (s.threads i.tid).pc.instr = .act takes f)
    (hpass : ∀ p q, program.Passes p q s.shared → P p → P q)
    (hstart : ∀ ctx callback w, P (.start ctx callback (.join w)) → P (.start ctx callback .reaped))
    (hstop : ∀ ctx caller w, P (.stop ctx caller (.join w)) → P (.stop ctx caller .relock)) {u : Tid}
    (hu : P (s.threads u).pc) : P (s'.threads u).pc := by
  rcases Program.step_pc hstep u with hpc | ⟨rfl, takes, f, _, _, hinstr, -⟩ | ⟨-, hpasses⟩ |
    ⟨-, child, f, hinstr⟩ | ⟨-, takes, f, _, _, hinstr, -⟩
  · rw [hpc]
    exact hu
  · exact absurd ⟨takes, f, hinstr⟩ hact
  · exact hpass _ _ hpasses hu
  · obtain ⟨-, ⟨ctx, callback, hp, hq⟩ | ⟨ctx, caller, hp, hq⟩⟩ := Pc.instr_join hinstr
    · rw [hp] at hu
      rw [hq]
      exact hstart ctx callback child hu
    · rw [hp] at hu
      rw [hq]
      exact hstop ctx caller child hu
  · exact absurd ⟨takes, f, hinstr⟩ hact

end

end NetFT.Client
