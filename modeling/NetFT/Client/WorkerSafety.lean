/-
# NetFT.Client.WorkerSafety — one worker, joined once, and `stop()` ends it.

What the lifecycle outline says of the running system.

* `System.WorkerSafe`: at most one worker is alive; `worker_` is neither assigned to nor destroyed
  while it is joinable; every worker is joined at most once, and not by itself; a client is freed only
  when all its workers are joined.
* `StopQuiet`: a `stop()` that is not made by the worker passes through a state in which no worker is
  alive.  `StopEndsCallbacks`: when no `start()` is called meanwhile, none is alive afterwards.
* **`workerLifecycle`**: all of it, in every interleaving.
-/
import NetFT.Client.Worker

namespace NetFT.Client

set_option autoImplicit false

open Library (Runs restrict)
open Library.Threads (Tid Effect Instr Program Sys Thread)

/-! ## Workers that are alive -/

/-- The thread is in `run()`, perhaps in a call from the callback. -/
def Pc.isWorker : Pc → Bool
  | .outside | .deferred => false
  | .start ctx _ _ | .stop ctx _ _ | .bias ctx _ | .waitForFirstSample ctx _ | .query ctx _
  | .destroy ctx _ => ctx.isCallback
  | .run pc => pc ≠ .ended

namespace System

def Alive (s : System) (w : Tid) : Prop := (s.threads w).pc.isWorker = true

def NoWorker (s : System) : Prop := ∀ w, ¬ s.Alive w

/-- No thread is in a call of `start()`. -/
def NoStart (s : System) : Prop :=
  ∀ t ctx callback pc, (s.threads t).pc ≠ .start ctx callback pc

/-- Thread `t` is in the given call of `stop()`. -/
def InStop (s : System) (ctx : Ctx) (caller : Caller) (t : Tid) : Prop :=
  ∃ pc, (s.threads t).pc = .stop ctx caller pc

structure WorkerSafe (s : System) : Prop where
  one : ∀ t u, s.Alive t → s.Alive u → t = u
  assigned : ∀ t ctx callback saved, (s.threads t).pc = .start ctx callback (.create saved) →
    s.shared.impl.worker = none
  destroyed : ∀ t ctx, (s.threads t).pc = .destroy ctx .free → s.shared.impl.worker = none
  once : (s.shared.joined.map Prod.snd).Nodup
  others : ∀ jw ∈ s.shared.joined, jw.1 ≠ jw.2
  joining : ∀ t w f q, (s.threads t).pc.instr = .join w f q →
    w ≠ t ∧ w ∈ s.shared.created ∧ w ∉ s.shared.joined.map Prod.snd
  freed : s.shared.freed = true →
    s.NoWorker ∧ ∀ w ∈ s.shared.created, w ∈ s.shared.joined.map Prod.snd

end System

/-- Every `stop()` from outside the worker has an instant at which no worker is alive. -/
def StopQuiet (config : Config) : Prop :=
  ∀ s s' is t ctx caller, s.Reachable config → ctx.isCallback = false →
    (s.threads t).pc = .stop ctx caller .lock →
    Runs (restrict Step fun s _ => s.InStop ctx caller t) s is s' →
    (s'.threads t).pc = .stop ctx caller .returned →
    ∃ js ks s₁, is = js ++ ks ∧ Runs Step s js s₁ ∧ s₁.NoWorker ∧ Runs Step s₁ ks s'

/-- When no `start()` runs during such a `stop()` and after it, no worker is alive after it. -/
def StopEndsCallbacks (config : Config) : Prop :=
  ∀ s s' s'' is js t ctx caller, s.Reachable config → ctx.isCallback = false →
    (s.threads t).pc = .stop ctx caller .lock →
    Runs (restrict Step fun s _ => s.InStop ctx caller t ∧ s.NoStart) s is s' →
    (s'.threads t).pc = .stop ctx caller .returned →
    Runs (restrict Step fun s _ => s.NoStart) s' js s'' → s''.NoWorker

/-! ## From the outline -/

namespace System.Reachable

variable {config : Config} {s : System} {t u w : Tid}

theorem lawful (h : s.Reachable config) : s.shared.lifecycle.Lawful := h.lifecycle.global

theorem placed (h : s.Reachable config) (t : Tid) : (s.threads t).pc.Placed t s.shared.lifecycle :=
  h.lifecycle.point t

/-- A worker that is alive has a handle. -/
theorem handle_of_alive (h : s.Reachable config) (hw : s.Alive w) : s.shared.lifecycle.Handle w := by
  have hstanding := (h.placed w).standing
  unfold Alive at hw
  cases hpc : (s.threads w).pc with
  | run pc =>
    simp only [hpc, Pc.isWorker, decide_eq_true_eq] at hw
    rw [hpc] at hstanding
    cases pc with
    | ended => exact absurd rfl hw
    | finishFaulted | finishState | finishNotifyFirst | finishNotifyLifecycle => exact hstanding
    | _ => exact hstanding.1
  | outside | deferred => simp [hpc, Pc.isWorker] at hw
  | start ctx _ _ | stop ctx _ _ | bias ctx _ | waitForFirstSample ctx _ | query ctx _
  | destroy ctx _ =>
    rw [hpc] at hw hstanding
    cases ctx with
    | callback k => exact hstanding.1
    | outside | deferred => cases hw

theorem noWorker_of_vacant (h : s.Reachable config) (hworker : s.shared.impl.worker = none)
    (hhandover : ∀ j w, s.shared.handover ≠ some (j, some w)) : s.NoWorker := fun w hw =>
  (h.handle_of_alive hw).elim (fun heq => by simp [Shared.lifecycle, hworker] at heq)
    fun ⟨j, heq⟩ => hhandover j w heq

theorem workerSafe (h : s.Reachable config) : s.WorkerSafe where
  one t u ht hu := h.lawful.unique (h.handle_of_alive ht) (h.handle_of_alive hu)
  assigned t ctx callback saved hpc := by
    have hknows := (h.placed t).knows
    rw [hpc] at hknows
    exact hknows.1.1
  destroyed t ctx hpc := by
    have hknows := (h.placed t).knows
    rw [hpc] at hknows
    exact hknows.1.1
  once := h.lawful.once
  others := h.lawful.others
  joining t w f q hinstr := by
    obtain ⟨hhandover, hne⟩ := handover_of_join hinstr (h.placed t)
    exact ⟨hne, h.lawful.handle w (.inr ⟨t, hhandover⟩)⟩
  freed hfreed := by
    obtain ⟨⟨hworker, hhandover⟩, -⟩ := h.lawful.freed hfreed
    have hnone : ∀ w, ¬ s.shared.lifecycle.Handle w := by
      rintro w (heq | ⟨j, heq⟩)
      · simp [hworker] at heq
      · simp [hhandover] at heq
    exact ⟨fun w hw => hnone w (h.handle_of_alive hw),
      fun w hw => (h.lawful.accounted w hw).resolve_right (hnone w)⟩

end System.Reachable

/-! ## The instant at which no worker is alive -/

/-- `stop()` has found no worker, or has joined one. -/
def StopPc.settled : StopPc → Bool
  | .idleFaulted | .idleState | .relock | .joinedState | .joined | .joinedNotifyLifecycle
  | .joinedNotifyFirst | .returned => true
  | _ => false

/-- A call of `stop()` settles where it has found no worker or has joined one, unless it was made by the
worker. -/
theorem settles {s s' : System} {i : Input} {t : Tid} {ctx : Ctx} {caller : Caller} {pc pc' : StopPc}
    (hstep : Step s i s') (hpc : (s.threads t).pc = .stop ctx caller pc) (hbefore : pc.settled = false)
    (hpc' : (s'.threads t).pc = .stop ctx caller pc') (hafter : pc'.settled = true) :
    pc' = .idleFaulted ∨ pc' = .relock ∨ s.shared.impl.calledFromWorkerThread t = true := by
  rcases Program.step_pc hstep t with hsame | ⟨-, takes, f, choice, e, hinstr, hf, hnext⟩ |
    ⟨-, hpass⟩ | ⟨-, child, f, hinstr⟩ | ⟨hfresh, -⟩
  · rw [hpc, hpc'] at hsame
    cases hsame
    simp [hbefore] at hafter
  · obtain ⟨rfl, rfl⟩ := Pc.instr_act hinstr
    rw [hpc] at hf
    rw [hpc'] at hnext
    cases pc <;> simp only [Pc.action, stopStep] at hf <;> grind [StopPc.settled]
  · rw [hpc, hpc'] at hpass
    cases goesOn_of_passes hpass <;> simp [StopPc.settled] at hbefore hafter
  · rw [hpc, hpc'] at hinstr
    change Pc.instr _ = _ at hinstr
    cases pc <;> cases hinstr
    exact .inr (.inl rfl)
  · rw [hpc] at hfresh
    cases hfresh

/-- Where a call of `stop()` settles, no worker is alive. -/
theorem System.Reachable.noWorker_of_settles {config : Config} {s s' : System} {i : Input} {t : Tid}
    {ctx : Ctx} {caller : Caller} {pc pc' : StopPc} (h : s.Reachable config) (hstep : Step s i s')
    (hctx : ctx.isCallback = false) (hpc : (s.threads t).pc = .stop ctx caller pc)
    (hbefore : pc.settled = false) (hpc' : (s'.threads t).pc = .stop ctx caller pc')
    (hafter : pc'.settled = true) : s'.NoWorker := by
  have hreach : s'.Reachable config := h.snoc hstep
  have hknows := (hreach.placed t).knows
  rw [hpc'] at hknows
  rcases settles hstep hpc hbefore hpc' hafter with rfl | rfl | hself
  · exact hreach.noWorker_of_vacant hknows.1 fun j w heq => by
      simpa [heq] using (show s'.shared.handover = none from hknows.2)
  · have hhandover : s'.shared.handover = some (t, none) := hknows
    refine hreach.noWorker_of_vacant ?_ fun j w heq => by simp [hhandover] at heq
    by_contra hsome
    exact absurd ((hreach.lawful.exclusive hsome).symm.trans hhandover) (by simp)
  · -- the worker is the only thread that `calledFromWorkerThread` recognizes
    have hstanding := (h.placed t).standing
    rw [hpc] at hstanding
    have hcreated := h.lawful.active t (calledFromWorkerThread_iff.mp hself).2
    cases ctx with
    | callback k => cases hctx
    | outside | deferred => exact absurd hcreated hstanding

/-- A run through a call of `stop()` meets the state in which it settles. -/
theorem exists_noWorker {config : Config} {P : System → Prop} {s s' : System} {is : List Input}
    {t : Tid} {ctx : Ctx} {caller : Caller} (h : s.Reachable config) (hctx : ctx.isCallback = false)
    (hcall : ∀ s, P s → s.InStop ctx caller t) (hpc : (s.threads t).pc = .stop ctx caller .lock)
    (hruns : Runs (restrict Step fun s _ => P s) s is s')
    (hpc' : (s'.threads t).pc = .stop ctx caller .returned) :
    ∃ js ks s₁, is = js ++ ks ∧ Runs (restrict Step fun s _ => P s) s js s₁ ∧ s₁.NoWorker ∧
      Runs (restrict Step fun s _ => P s) s₁ ks s' := by
  obtain ⟨js, i, ks, s₁, s₂, rfl, hleft, hbefore, hstep, ⟨pc', hpc₂, hafter⟩, hright⟩ :=
    Runs.crossing (p := fun s => ∃ pc, (s.threads t).pc = .stop ctx caller pc ∧ pc.settled = true) hruns
      (by rintro ⟨pc, hpc₁, hsettled⟩; rw [hpc] at hpc₁; cases hpc₁; cases hsettled)
      ⟨.returned, hpc', rfl⟩
  obtain ⟨pc, hpc₁⟩ := hcall s₁ hstep.1
  have hunsettled : pc.settled = false := by
    by_contra hsettled
    exact hbefore ⟨pc, hpc₁, by simpa using hsettled⟩
  have hreach : s₁.Reachable config := Library.Reachable.runs h hleft.of_restrict
  refine ⟨js ++ [i], ks, s₂, by simp, hleft.append (.single hstep), ?_, hright⟩
  exact hreach.noWorker_of_settles hstep.2 hctx hpc₁ hunsettled hpc₂ hafter

theorem stopQuiet (config : Config) : StopQuiet config := by
  intro s s' is t ctx caller h hctx hpc hruns hpc'
  obtain ⟨js, ks, s₁, rfl, hleft, hquiet, hright⟩ :=
    exists_noWorker h hctx (fun _ => id) hpc hruns hpc'
  exact ⟨js, ks, s₁, rfl, hleft.of_restrict, hquiet, hright.of_restrict⟩

/-! ## Without `start()` no worker appears -/

theorem Ctx.resume_isWorker (ctx : Ctx) : ctx.resume.isWorker = ctx.isCallback := by
  cases ctx <;> rfl

theorem beginCall_isWorker {ctx : Ctx} {t : Tid} {call : Call} {s : Shared} {e : Effect Shared Pc}
    (h : beginCall ctx t call s = some e) : e.next.isWorker = ctx.isCallback := by
  cases call <;> simp only [beginCall] at h <;> grind [Pc.isWorker]

/-- Who is not the worker does not become it. -/
theorem action_isWorker {p : Pc} {t : Tid} {choice : Choice} {s : Shared} {e : Effect Shared Pc}
    (h : p.action t choice s = some e) (hp : p.isWorker = false) : e.next.isWorker = false := by
  have hcall := @beginCall_isWorker
  have hresume := Ctx.resume_isWorker
  cases p with
  | start ctx callback pc => cases pc <;> simp only [Pc.action, startStep] at h <;> grind [Pc.isWorker]
  | stop ctx caller pc =>
    cases pc <;> cases caller <;> simp only [Pc.action, stopStep] at h <;> grind [Pc.isWorker]
  | bias ctx pc => cases pc <;> simp only [Pc.action, biasStep] at h <;> grind [Pc.isWorker]
  | waitForFirstSample ctx pc =>
    cases pc <;> simp only [Pc.action, waitStep] at h <;> grind [Pc.isWorker]
  | query ctx q => cases q <;> simp only [Pc.action, queryStep] at h <;> grind [Pc.isWorker]
  | destroy ctx pc => cases pc <;> simp only [Pc.action, destroyStep] at h <;> grind [Pc.isWorker]
  | run pc =>
    obtain rfl : pc = .ended := by simpa [Pc.isWorker] using hp
    cases h
  | outside => simp only [Pc.action, outsideStep] at h; grind [Pc.isWorker, Ctx.isCallback]
  | deferred => simp only [Pc.action, deferredStep] at h; grind [Pc.isWorker, Ctx.isCallback]

theorem passes_isWorker {p q : Pc} {s : Shared} (h : program.Passes p q s) (hp : p.isWorker = false) :
    q.isWorker = false := by
  cases goesOn_of_passes h <;> first
    | exact hp
    | cases hp

theorem System.NoWorker.step {s s' : System} {i : Input} (h : s.NoWorker) (hstart : s.NoStart)
    (hstep : Step s i s') : s'.NoWorker := by
  intro w hw
  have hdead : (s.threads w).pc.isWorker = false := by simpa [Alive] using h w
  unfold Alive at hw
  rcases Program.step_pc hstep w with hsame | ⟨-, takes, f, choice, e, hinstr, hf, hnext⟩ |
    ⟨-, hpass⟩ | ⟨-, child, f, hinstr⟩ | ⟨-, takes, f, choice, e, hinstr, hf, hspawned⟩
  · simp [hsame, hdead] at hw
  · obtain ⟨rfl, rfl⟩ := Pc.instr_act hinstr
    simp [hnext, action_isWorker hf hdead] at hw
  · simp [passes_isWorker hpass hdead] at hw
  · obtain ⟨-, ⟨ctx, callback, hp, hq⟩ | ⟨ctx, caller, hp, hq⟩⟩ := Pc.instr_join hinstr <;>
      rw [hp] at hdead <;> rw [hq] at hw <;> exact absurd (hdead.symm.trans hw) (by simp)
  · obtain ⟨rfl, rfl⟩ := Pc.instr_act hinstr
    have hnone := action_spawned hf fun ctx callback saved => hstart i.tid ctx callback (.create saved)
    simp [hnone.1] at hspawned

theorem stopEndsCallbacks (config : Config) : StopEndsCallbacks config := by
  intro s s' s'' is js t ctx caller h hctx hpc hruns hpc' hrest
  obtain ⟨-, ks, s₁, -, -, hquiet, hright⟩ :=
    exists_noWorker h hctx (fun _ h => h.1) hpc hruns hpc'
  have hquiet' : s'.NoWorker :=
    hright.invariant (fun _ _ _ hinv hstep => hinv.step hstep.1.2 hstep.2) hquiet
  exact hrest.invariant (fun _ _ _ hinv hstep => hinv.step hstep.1 hstep.2) hquiet'

/-- **The lifecycle of the worker is safe**, in every interleaving. -/
theorem workerLifecycle (config : Config) :
    (∀ s : System, s.Reachable config → s.WorkerSafe) ∧ StopQuiet config ∧ StopEndsCallbacks config :=
  ⟨fun _ h => h.workerSafe, stopQuiet config, stopEndsCallbacks config⟩

/-! ## A run -/

/-- Thread `t` takes its next step. -/
def go (t : Tid) (choice : Choice := .proceed) : Input := ⟨t, .go choice⟩

/-- Thread `t` takes `n` steps. -/
def steps (t : Tid) (n : Nat) : List Input := List.replicate n (go t)

/-- Thread 1 calls `start()`, which creates the worker, thread 2. -/
def startRun : List Input :=
  go 1 (.call (.start none)) :: steps 1 7 ++ [go 1 (.created 2)] ++ steps 1 3

/-- The worker begins a session, and discovery fails. -/
def discoveryFails : List Input := steps 2 3 ++ [go 2 (.fail "no route to host")]

def failStopConfig : Config := { recoveryPolicy := .FailStop }

/-- The worker of a FailStop client faults and ends. -/
def faultedRun : List Input := startRun ++ discoveryFails ++ steps 2 11

def stopRun : List Input := steps 1 10

theorem faulted_stop_quiet :
    ∃ (s s' s₁ : System) (js ks : List Input), s.Reachable failStopConfig ∧
      (s.threads 1).pc = .stop .outside .user .lock ∧
      Runs Step s js s₁ ∧ s₁.NoWorker ∧ Runs Step s₁ ks s' ∧
      (s'.threads 1).pc = .stop .outside .user .returned := by
  let inStop : System → Bool := fun s =>
    match (s.threads 1).pc with
    | .stop .outside .user _ => true
    | _ => false
  have hrun : ((Library.execute program.next (System.init failStopConfig)
      (faultedRun ++ [go 1 (.call .stop)])).bind fun s =>
        if (s.threads 1).pc = .stop .outside .user .lock then
          (Library.execute (Library.guarded program.next inStop) s stopRun).map fun s' =>
            decide ((s'.threads 1).pc = .stop .outside .user .returned)
        else none) = some true := by decide +kernel
  obtain ⟨s, hs, hrest⟩ := Option.bind_eq_some_iff.mp hrun
  split_ifs at hrest with hlock
  obtain ⟨s', hruns, hreturned⟩ := Library.exists_runs_of_execute hrest
  have hreach : System.Reachable failStopConfig s := ⟨_, Library.execute_runs hs⟩
  obtain ⟨js, ks, s₁, -, hleft, hquiet, hright⟩ :=
    (workerLifecycle failStopConfig).2.1 s s' stopRun 1 .outside .user hreach rfl hlock
      (hruns.of_guarded.mono fun s i s' hstep => ⟨by
        have hstop := hstep.1
        simp only [inStop] at hstop
        split at hstop
        · rename_i pc hpc
          exact ⟨pc, hpc⟩
        · exact absurd hstop Bool.false_ne_true, hstep.2⟩)
      (of_decide_eq_true hreturned)
  exact ⟨s, s', s₁, js, ks, hreach, hlock, hleft, hquiet, hright, of_decide_eq_true hreturned⟩

end NetFT.Client
