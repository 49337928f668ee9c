/-
# NetFT.Client.Rollback — a `start` that cannot create its thread changes nothing.

`start` saves some fifteen fields one by one, overwrites them, and writes them back under three locks.
`StartPc.Stands` says, for every control point of the call, what the client is in terms of the state `b`
in which `start` found no worker to join.

* `FailedStart`: the client is as it was before the call, apart from a finished worker that has been
  joined; the call is left by the exception alone; and a call that runs alone comes to that.
* **`failedStart`**: this holds from every reachable state.  The latch is opened and published again,
  which writes into the snapshot what it said already (`System.Reachable.latch`).
-/
import NetFT.Client.Latch

namespace NetFT.Client

set_option autoImplicit false

open Library (Runs restrict)
open Library.Threads (Tid Effect Program)
open Lifecycle (Move LockedMove)

/-! ## The states of a call -/

/-- Nothing has changed, or a finished worker has been joined. -/
def Impl.Reaped (c c' : Impl) : Prop :=
  c' = c ∨
    c.worker.isSome = true ∧ c.workerExited = true ∧
      c' = { c with worker := none, activeWorkerId := none }

/-- The copies that `start` makes of the state `b`. -/
def Impl.saved (b : Impl) : Saved where
  stopping := b.stopping
  workerExited := b.workerExited
  fault := b.faultLatch
  callback := b.callback
  lastDelivery := b.lastDeliveryAt
  health := b.health
  latest := b.latest
  lastRecord := b.lastRecordAt
  generation := b.generation
  deliveredGeneration := b.deliveredGeneration
  receiveTimes := b.receiveTimes
  deliveryTimes := b.deliveryTimes
  consecutiveMalformed := b.consecutiveMalformed

/-- What `start` has made of `b` after its data section. -/
def Impl.opened (b : Impl) : Impl :=
  { b with callback := none, lastDeliveryAt := 0 }.beginGeneration

namespace StartPc

/-- The client at a control point of a `start` that has found no worker to join in the state `b`. -/
def From (callback : SampleCallback) (b c : Impl) : StartPc → Prop
  | .record saved =>
    c = { b with callback := none } ∧
      saved =
        { stopping := b.stopping
          workerExited := b.workerExited
          fault := b.faultLatch
          callback := b.callback }
  | .data saved =>
    c = { b with callback := none, lastDeliveryAt := 0 } ∧
      saved =
        { stopping := b.stopping
          workerExited := b.workerExited
          fault := b.faultLatch
          callback := b.callback
          lastDelivery := b.lastDeliveryAt }
  | .stopping saved => c = b.opened ∧ saved = b.saved
  | .exited saved => c = { b.opened with stopping := false } ∧ saved = b.saved
  | .create saved | .rollbackStopping saved =>
    c = { b.opened with stopping := false, workerExited := false, callback } ∧ saved = b.saved
  | .rollbackExited saved =>
    c = { b.opened with stopping := b.stopping, workerExited := false, callback } ∧ saved = b.saved
  | .rollbackRecord saved =>
    c = { b.opened with
          stopping := b.stopping, workerExited := b.workerExited, callback := b.callback } ∧
      saved = b.saved
  | .rollbackData saved => c = b.beginGeneration ∧ saved = b.saved
  | .rollbackReset saved | .rollbackPublish saved => c = b.resetFault ∧ saved = b.saved
  | .rollbackNotifyFirst | .rollbackNotifyLifecycle | .threw => c = b
  | _ => True

/-- The client at a control point of a `start` that was called in the state `c₀`. -/
def Stands (callback : SampleCallback) (c₀ c : Impl) (pc : StartPc) : Prop :=
  match pc with
  | .lock | .waitJoining | .inspect | .faulted | .waitExited | .reapedNotify => c₀.Reaped c
  | .join _ | .reaped =>
    c₀.worker.isSome = true ∧ c₀.workerExited = true ∧ c₀.joining = false ∧
      c = { c₀ with worker := none, joining := true }
  | pc => ∃ b, c₀.Reaped b ∧ pc.From callback b c

end StartPc

section

variable {c₀ b c : Impl} {ctx : Ctx} {callback : SampleCallback} {pc pc' : StartPc} {t : Tid}
  {choice : Choice} {s : Shared} {e : Effect Shared Pc}

theorem Impl.Reaped.latched (h : c₀.Reaped b) (hlatched : c₀.Latched) : b.Latched := by
  rcases h with rfl | ⟨-, -, rfl⟩
  · exact hlatched
  · exact hlatched.congr rfl rfl

/-- The latch that is published a second time. -/
theorem Impl.Latched.restore (h : b.Latched) :
    (if b.saved.fault ≠ .None then b.resetFault.publishFault b.saved.fault b.saved.health.lastError
      else b.resetFault) = b := by
  have hfields : b.resetFault = { b with faultLatch := .None } := rfl
  by_cases hfault : b.faultLatch = .None
  · have hsaved : ¬ b.saved.fault ≠ .None := not_not.mpr hfault
    rw [if_neg hsaved, hfields, ← hfault]
  · obtain ⟨hstate, hcode⟩ := h hfault
    have hsaved : b.saved.fault ≠ .None := hfault
    rw [if_pos hsaved, Impl.publishFault, if_pos (show b.resetFault.faultLatch = .None from rfl)]
    -- the snapshot is written with what it says
    have hhealth : { b.health with
        state := .Faulted, faultCode := b.faultLatch, lastError := b.health.lastError } = b.health := by
      rw [← hstate, ← hcode]
    exact congrArg (fun health => { b with health }) hhealth

theorem Ctx.resume_ne_start (ctx ctx' : Ctx) (callback : SampleCallback) (pc : StartPc) :
    ctx.resume ≠ .start ctx' callback pc := by
  cases ctx <;> exact fun h => by cases h

/-- **One action of the call.** -/
theorem startStep_stands (h : startStep ctx callback pc t choice s = some e)
    (hs : pc.Stands callback c₀ s.impl) (hlatched : c₀.Latched)
    (hjoining : pc = .inspect → s.impl.joining = false)
    (hnext : e.next = .start ctx callback pc') : pc'.Stands callback c₀ e.shared.impl := by
  have hleave : ctx.resume ≠ .start ctx callback pc' := ctx.resume_ne_start ctx callback pc'
  cases pc with
  | lock =>
    simp only [startStep] at h
    split_ifs at h <;> cases h
    · exact absurd hnext hleave
    · cases hnext
      exact hs
  | inspect =>
    simp only [startStep] at h
    split at h
    · rename_i w hworker
      -- a worker that is there has not been joined
      have hsame : s.impl = c₀ := by
        rcases hs with hsame | ⟨-, -, hreaped⟩
        · exact hsame
        · rw [hreaped] at hworker
          cases hworker
      split_ifs at h with hexited <;> cases h <;> cases hnext
      · rw [hsame] at hworker hexited hjoining
        refine ⟨by rw [hworker]; rfl, hexited, hjoining rfl, ?_⟩
        rw [hsame]
      · exact hs
    · cases h
      cases hnext
      exact ⟨s.impl, hs, rfl, rfl⟩
  | faulted =>
    simp only [startStep] at h
    split_ifs at h <;> cases h
    · cases hnext
      exact hs
    · exact absurd hnext hleave
  | reaped =>
    cases h
    cases hnext
    obtain ⟨hworker, hexited, hjoining₀, heq⟩ := hs
    refine .inr ⟨hworker, hexited, ?_⟩
    change { s.impl with activeWorkerId := none, joining := false } = _
    rw [heq, ← hjoining₀]
  | record saved | data saved | stopping saved | exited saved | rollbackStopping saved
  | rollbackExited saved | rollbackRecord saved | rollbackData saved =>
    cases h
    cases hnext
    obtain ⟨b, hreaped, hb, hsaved⟩ := hs
    subst hsaved
    refine ⟨b, hreaped, ?_, ?_⟩ <;> dsimp only <;> generalize s.impl = c at hb ⊢ <;> subst hb <;> rfl
  | create saved =>
    rcases create_cases (t := t) h with ⟨w, rfl⟩ | rfl <;> cases hnext
    · obtain ⟨b, hreaped, -⟩ := hs
      exact ⟨b, hreaped, ⟨⟩⟩
    · exact hs
  | rollbackReset saved =>
    cases h
    cases hnext
    obtain ⟨b, hreaped, hb, hsaved⟩ := hs
    refine ⟨b, hreaped, ?_, hsaved⟩
    change s.impl.resetFault = b.resetFault
    rw [hb]
    rfl
  | rollbackPublish saved =>
    cases h
    cases hnext
    obtain ⟨b, hreaped, hb, rfl⟩ := hs
    refine ⟨b, hreaped, ?_⟩
    change (if b.saved.fault ≠ .None then s.impl.publishFault b.saved.fault b.saved.health.lastError
      else s.impl) = b
    rw [hb]
    exact (hreaped.latched hlatched).restore
  | returned | threw =>
    cases h
    exact absurd hnext hleave
  | _ => exact absurd h (by simp [startStep])

end

/-! ## Calls -/

/-- Thread `t` is in the given call of `start`. -/
def System.InStart (s : System) (ctx : Ctx) (callback : SampleCallback) (t : Tid) : Prop :=
  ∃ pc, (s.threads t).pc = .start ctx callback pc

/-- A step during a call of `start` by thread `t`, in which the other threads do not write to the
client. -/
def StartStep (t : Tid) (ctx : Ctx) (callback : SampleCallback) (s : System) (i : Input) (s' : System) :
    Prop :=
  Step s i s' ∧ s.InStart ctx callback t ∧ (i.tid ≠ t → s'.shared.impl = s.shared.impl)

/-- Thread `t` runs alone, and creates no thread. -/
def RunsAlone (t : Tid) (i : Input) : Prop := i.tid = t ∧ ∀ w, i.move ≠ .go (.created w)

/-- What a `start` does that cannot create its thread. -/
structure FailedStart (config : Config) : Prop where
  /-- The client is as it was, apart from a finished worker that has been joined. -/
  restores : ∀ s s' is t ctx callback, s.Reachable config →
    (s.threads t).pc = .start ctx callback .lock → Runs (StartStep t ctx callback) s is s' →
    (s'.threads t).pc = .start ctx callback .threw → s.shared.impl.Reaped s'.shared.impl
  /-- Once the creation has failed, the call is left by the exception alone. -/
  rethrows : ∀ s s₁ s₂ s' is i t ctx callback saved what, s.Reachable config →
    (s.threads t).pc = .start ctx callback (.create saved) → Step s ⟨t, .go (.fail what)⟩ s₁ →
    Runs (restrict Step fun s _ => s.InStart ctx callback t) s₁ is s₂ → s₂.InStart ctx callback t →
    Step s₂ i s' → ¬ s'.InStart ctx callback t → (s₂.threads t).pc = .start ctx callback .threw
  /-- With no worker alive, a call that runs alone comes to the exception. -/
  completes : ∀ (s : System) t ctx callback, s.Reachable config → s.NoWorker → Program.Solo s t →
    s.shared.impl.joining = false → (s.threads t).pc = .start ctx callback .lock →
    ∃ is s', Runs (restrict Step fun _ i => RunsAlone t i) s is s' ∧
      (s'.threads t).pc = .start ctx callback .threw

section

variable {config : Config} {s s' : System} {i : Input} {t : Tid} {ctx : Ctx}
  {callback : SampleCallback} {pc pc' : StartPc} {c₀ c : Impl}

theorem passes_stands {sh : Shared}
    (h : program.Passes (.start ctx callback pc) (.start ctx callback pc') sh)
    (hs : pc.Stands callback c₀ c) : pc'.Stands callback c₀ c := by
  cases goesOn_of_passes h <;> exact hs

/-- A step of the call. -/
theorem start_stands (h : s.Reachable config) (hlatched : c₀.Latched)
    (hstep : StartStep t ctx callback s i s') (hpc : (s.threads t).pc = .start ctx callback pc)
    (hpc' : (s'.threads t).pc = .start ctx callback pc') (hs : pc.Stands callback c₀ s.shared.impl) :
    pc'.Stands callback c₀ s'.shared.impl := by
  obtain ⟨hnext, -, hothers⟩ := hstep
  by_cases hi : i.tid = t
  · subst hi
    by_cases hact : ∃ takes f, (s.threads i.tid).pc.instr = .act takes f
    · obtain ⟨takes, f, hinstr⟩ := hact
      obtain ⟨choice, e, -, hf, hshared, hat, -⟩ := h.consistent.step_act hnext hinstr
      obtain ⟨-, rfl⟩ := Pc.instr_act hinstr
      rw [hpc] at hf
      rw [hpc'] at hat
      rw [hshared]
      refine startStep_stands hf hs hlatched (fun hinspect => ?_) hat.symm
      have hknows := (h.placed i.tid).knows
      rw [hpc, hinspect] at hknows
      exact hknows
    · rw [(shared_of_not_act hnext hact).1]
      rcases Program.step_pc hnext i.tid with hsame | ⟨-, takes, f, _, _, hinstr, -⟩ | ⟨-, hpass⟩ |
        ⟨-, child, f, hinstr⟩ | ⟨hfresh, -⟩
      · rw [hpc, hpc'] at hsame
        cases hsame
        exact hs
      · exact absurd ⟨takes, f, hinstr⟩ hact
      · rw [hpc, hpc'] at hpass
        exact passes_stands hpass hs
      · rw [hpc, hpc'] at hinstr
        obtain ⟨-, ⟨_, _, hp, hq⟩ | ⟨_, _, hp, -⟩⟩ := Pc.instr_join hinstr
        · cases hp
          cases hq
          exact hs
        · cases hp
      · rw [hpc] at hfresh
        cases hfresh
  · have hsame := Program.step_pc_other hnext (Ne.symm hi) (by rw [hpc]; rfl)
    rw [hpc, hpc'] at hsame
    cases hsame
    rw [hothers hi]
    exact hs

end

theorem failedStart_restores {config : Config} {s s' : System} {is : List Input} {t : Tid} {ctx : Ctx}
    {callback : SampleCallback} (h : s.Reachable config)
    (hpc : (s.threads t).pc = .start ctx callback .lock) (hruns : Runs (StartStep t ctx callback) s is s')
    (hpc' : (s'.threads t).pc = .start ctx callback .threw) : s.shared.impl.Reaped s'.shared.impl := by
  have hinv : s'.Reachable config ∧ ∀ pc, (s'.threads t).pc = .start ctx callback pc →
      pc.Stands callback s.shared.impl s'.shared.impl := by
    refine hruns.invariant (I := fun s' : System => s'.Reachable config ∧
      ∀ pc, (s'.threads t).pc = .start ctx callback pc →
        pc.Stands callback s.shared.impl s'.shared.impl) ?_ ⟨h, fun pc heq => ?_⟩
    · rintro s₁ i s₂ ⟨hreach, hstands⟩ hstep
      refine ⟨hreach.step hstep.1, fun pc' hpc' => ?_⟩
      obtain ⟨pc, hpc⟩ := hstep.2.1
      exact start_stands hreach h.latch.1 hstep hpc hpc' (hstands pc hpc)
    · rw [hpc] at heq
      cases heq
      exact .inl rfl
  obtain ⟨b, hreaped, hb⟩ := hinv.2 .threw hpc'
  have heq : s'.shared.impl = b := hb
  rw [heq]
  exact hreaped

/-! ## The exception -/

/-- The call is on its way to the exception. -/
def StartPc.rollingBack : StartPc → Bool
  | .rollbackStopping _ | .rollbackExited _ | .rollbackRecord _ | .rollbackData _ | .rollbackReset _
  | .rollbackPublish _ | .rollbackNotifyFirst | .rollbackNotifyLifecycle | .threw => true
  | _ => false

/-- A step on that way; only the exception leaves the call. -/
theorem rollback_step {s s' : System} {i : Input} {t : Tid} {ctx : Ctx} {callback : SampleCallback}
    {pc : StartPc} (hstep : Step s i s') (hpc : (s.threads t).pc = .start ctx callback pc)
    (hrolling : pc.rollingBack = true) :
    (∃ pc', (s'.threads t).pc = .start ctx callback pc' ∧ pc'.rollingBack = true) ∨
      pc = .threw ∧ ¬ s'.InStart ctx callback t := by
  rcases Program.step_pc hstep t with hsame | ⟨-, takes, f, choice, e, hinstr, hf, hnext⟩ |
    ⟨-, hpass⟩ | ⟨-, child, f, hinstr⟩ | ⟨hfresh, -⟩
  · exact .inl ⟨pc, by rw [hsame, hpc], hrolling⟩
  · obtain ⟨-, rfl⟩ := Pc.instr_act hinstr
    rw [hpc] at hf
    rw [hnext]
    cases pc with
    | threw =>
      cases hf
      exact .inr ⟨rfl, fun ⟨pc', hpc'⟩ => ctx.resume_ne_start ctx callback pc' (hnext.symm.trans hpc')⟩
    | rollbackStopping | rollbackExited | rollbackRecord | rollbackData | rollbackReset
    | rollbackPublish =>
      cases hf
      exact .inl ⟨_, rfl, rfl⟩
    | rollbackNotifyFirst | rollbackNotifyLifecycle => exact absurd hf (by simp [Pc.action, startStep])
    | _ => cases hrolling
  · rw [hpc] at hpass
    generalize (s'.threads t).pc = q at hpass
    cases goesOn_of_passes hpass with
    | rollbackFirst | rollbackLifecycle => exact .inl ⟨_, rfl, rfl⟩
    | _ => cases hrolling
  · rw [hpc] at hinstr
    obtain ⟨-, ⟨_, _, hp, -⟩ | ⟨_, _, hp, -⟩⟩ := Pc.instr_join hinstr <;> cases hp
    cases hrolling
  · rw [hpc] at hfresh
    cases hfresh

theorem failedStart_rethrows {config : Config} {s s₁ s₂ s' : System} {is : List Input} {i : Input}
    {t : Tid} {ctx : Ctx} {callback : SampleCallback} {saved : Saved} {what : String}
    (h : s.Reachable config) (hpc : (s.threads t).pc = .start ctx callback (.create saved))
    (hfail : Step s ⟨t, .go (.fail what)⟩ s₁)
    (hruns : Runs (restrict Step fun s _ => s.InStart ctx callback t) s₁ is s₂)
    (hin : s₂.InStart ctx callback t) (hstep : Step s₂ i s') (hout : ¬ s'.InStart ctx callback t) :
    (s₂.threads t).pc = .start ctx callback .threw := by
  have hfirst : (s₁.threads t).pc = .start ctx callback (.rollbackStopping saved) := by
    obtain ⟨choice, e, hmove, hf, -, hat, -⟩ := h.consistent.step_act hfail (by rw [hpc]; rfl)
    cases hmove
    rw [hat]
    cases hf
    rfl
  have hrolling : s₂.InStart ctx callback t → ∃ pc, (s₂.threads t).pc = .start ctx callback pc ∧
      pc.rollingBack = true := by
    refine hruns.invariant (I := fun s : System => s.InStart ctx callback t →
      ∃ pc, (s.threads t).pc = .start ctx callback pc ∧ pc.rollingBack = true) ?_
      fun _ => ⟨_, hfirst, rfl⟩
    rintro a j b hinv ⟨hina, hnext⟩ ⟨pc', hpc'⟩
    obtain ⟨pc, hpc, hrolling⟩ := hinv hina
    rcases rollback_step hnext hpc hrolling with hmore | ⟨-, hleft⟩
    · exact hmore
    · exact absurd ⟨pc', hpc'⟩ hleft
  obtain ⟨pc, hpc₂, hrolls⟩ := hrolling hin
  rcases rollback_step hstep hpc₂ hrolls with ⟨pc', hpc', -⟩ | ⟨rfl, -⟩
  · exact absurd ⟨pc', hpc'⟩ hout
  · exact hpc₂

/-! ## A worker that is past its exit -/

/-- The worker has stored `worker_exited_`. -/
def Pc.hasExited : Pc → Bool
  | .run pc => pc.stage ≠ .live
  | _ => false

theorem action_hasExited {p : Pc} {t : Tid} {choice : Choice} {s : Shared} {e : Effect Shared Pc}
    (h : p.action t choice s = some e) (hbefore : p.hasExited = false)
    (hafter : e.next.hasExited = true) : e.shared.impl.workerExited = true := by
  have hresume : ∀ ctx : Ctx, ctx.resume.hasExited = false := fun ctx => by cases ctx <;> rfl
  have hcall : ∀ {ctx call}, beginCall ctx t call s = some e → e.next.hasExited = false := by
    intro ctx call hcall
    cases call <;> grind [beginCall, Pc.hasExited]
  cases p with
  | run pc =>
    rcases runStep_cases h with ⟨k, call, -, hbegin⟩ | ⟨impl, sessions, next, hstep, rfl⟩
    · simp [hcall hbegin] at hafter
    · by_cases hexited : pc = .finishExited
      · subst hexited
        cases hstep
        rfl
      · have hstage := RunPc.step_stage hstep hexited
        simp only [Pc.hasExited, hstage] at hbefore hafter
        rw [hbefore] at hafter
        cases hafter
  | start ctx callback pc => cases pc <;> simp only [Pc.action, startStep] at h <;> grind [Pc.hasExited]
  | stop ctx caller pc =>
    cases pc <;> cases caller <;> simp only [Pc.action, stopStep] at h <;> grind [Pc.hasExited]
  | bias ctx pc => cases pc <;> simp only [Pc.action, biasStep] at h <;> grind [Pc.hasExited]
  | waitForFirstSample ctx pc =>
    cases pc <;> simp only [Pc.action, waitStep] at h <;> grind [Pc.hasExited]
  | query ctx q => cases q <;> simp only [Pc.action, queryStep] at h <;> grind
  | destroy ctx pc => cases pc <;> simp only [Pc.action, destroyStep] at h <;> grind [Pc.hasExited]
  | outside => simp only [Pc.action, outsideStep] at h; grind
  | deferred => simp only [Pc.action, deferredStep] at h; grind [Pc.hasExited]

theorem passes_hasExited {p q : Pc} {s : Shared} (h : program.Passes p q s) :
    q.hasExited = p.hasExited := by
  cases goesOn_of_passes h with
  | deliveredLifecycle k =>
    exact congrArg (fun stage => decide (stage ≠ RunPc.Stage.live)) (RunPc.afterRecord_stage _ _)
  | _ => rfl

namespace System.Reachable

variable {config : Config} {s s' : System} {i : Input} {w : Tid}

/-- Where a step takes a worker past its exit, `worker_exited_` is set. -/
theorem hasExited_step (h : s.Reachable config) (hstep : Step s i s')
    (hafter : (s'.threads w).pc.hasExited = true) :
    (s.threads w).pc.hasExited = true ∨ s'.shared.impl.workerExited = true := by
  cases hbefore : (s.threads w).pc.hasExited with
  | true => exact .inl rfl
  | false =>
    right
    rcases Program.step_pc hstep w with hsame | ⟨rfl, takes, f, -, -, hinstr, -⟩ | ⟨-, hpass⟩ |
      ⟨-, child, f, hinstr⟩ | ⟨-, takes, f, choice, e, hinstr, hf, hspawned⟩
    · rw [hsame, hbefore] at hafter
      cases hafter
    · obtain ⟨choice, e, -, hf, hshared, hat, -⟩ := h.consistent.step_act hstep hinstr
      obtain ⟨-, rfl⟩ := Pc.instr_act hinstr
      rw [hat] at hafter
      rw [hshared]
      exact action_hasExited hf hbefore hafter
    · rw [passes_hasExited hpass, hbefore] at hafter
      cases hafter
    · obtain ⟨-, ⟨_, _, -, hq⟩ | ⟨_, _, -, hq⟩⟩ := Pc.instr_join hinstr <;> rw [hq] at hafter <;>
        cases hafter
    · obtain ⟨-, rfl⟩ := Pc.instr_act hinstr
      rw [spawned_run hf hspawned] at hafter
      cases hafter

theorem created_of_hasExited (h : s.Reachable config) (hw : (s.threads w).pc.hasExited = true) :
    w ∈ s.shared.lifecycle.created := by
  have hstanding := (h.placed w).standing
  cases hpc : (s.threads w).pc with
  | run pc =>
    rw [hpc] at hw hstanding
    simp only [Pc.standing] at hstanding
    simp only [Pc.hasExited, decide_eq_true_eq] at hw
    cases hstage : pc.stage with
    | live => exact absurd hstage hw
    | exiting =>
      rw [hstage] at hstanding
      exact (h.lawful.handle w hstanding).1
    | ended =>
      rw [hstage] at hstanding
      exact hstanding
  | _ =>
    rw [hpc] at hw
    cases hw

/-- A handle is the one of a worker that has not exited, as long as `worker_exited_` is not set. -/
theorem exited_of_handle (h : s.Reachable config) (hw : (s.threads w).pc.hasExited = true)
    (hhandle : s.shared.lifecycle.Handle w) : s.shared.lifecycle.exited = true := by
  suffices hall : ∀ w, (s.threads w).pc.hasExited = true → s.shared.lifecycle.Handle w →
      s.shared.lifecycle.exited = true from hall w hw hhandle
  refine Library.Reachable.invariant (I := fun s : System => ∀ w, (s.threads w).pc.hasExited = true →
    s.shared.lifecycle.Handle w → s.shared.lifecycle.exited = true) ?_ ?_ h
  · intro w _ _
    rfl
  · intro s i s' hreach hinv hstep w hafter hhandle
    replace hreach : s.Reachable config := hreach
    rcases hreach.hasExited_step hstep hafter with hbefore | hset
    · have hcreated : w ∈ s.shared.lifecycle.created := hreach.created_of_hasExited hbefore
      have hkeep := hinv w hbefore
      rcases hreach.lifecycle_step hstep with hmove | hmove | ⟨v, -, -, hjoin⟩
      · generalize s'.shared.lifecycle = l' at hmove hhandle ⊢
        cases hmove with
        | exit _ => rfl
        | _ => exact hkeep hhandle
      · generalize s'.shared.lifecycle = l' at hmove hhandle ⊢
        cases hmove with
        | take _ hworker _ =>
          rcases hhandle with hnone | ⟨j, heq⟩
          · cases hnone
          · cases heq
            exact hkeep (.inl hworker)
        | clear _ =>
          rcases hhandle with hworker | ⟨j, hnone⟩
          · exact hkeep (.inl hworker)
          · cases hnone
        | setExited exited hvacant =>
          rcases hhandle with hworker | ⟨j, hhandover⟩
          · exact absurd (hvacant.1.symm.trans hworker) (by simp)
          · exact absurd (hvacant.2.symm.trans hhandover) (by simp)
        | create hvacant _ hnew =>
          rcases hhandle with hworker | ⟨j, hhandover⟩
          · cases hworker
            exact absurd hcreated hnew
          · exact absurd (hvacant.2.symm.trans hhandover) (by simp)
      · rw [hjoin] at hhandle ⊢
        rcases hhandle with hworker | ⟨j, hnone⟩
        · exact hkeep (.inl hworker)
        · cases hnone
    · exact hset

end System.Reachable

/-! ## A call that runs alone -/

/-- How many steps a `start` that has found no worker takes to the exception. -/
def StartPc.remaining : StartPc → Option Nat
  | .threw => some 0
  | .rollbackNotifyLifecycle => some 1
  | .rollbackNotifyFirst => some 2
  | .rollbackPublish _ => some 3
  | .rollbackReset _ => some 4
  | .rollbackData _ => some 5
  | .rollbackRecord _ => some 6
  | .rollbackExited _ => some 7
  | .rollbackStopping _ => some 8
  | .create _ => some 9
  | .exited _ => some 10
  | .stopping _ => some 11
  | .data _ => some 12
  | .record _ => some 13
  | _ => none

/-- The call comes to the exception. -/
def ComesToThrow (t : Tid) (ctx : Ctx) (callback : SampleCallback) (s : System) : Prop :=
  ∃ is s', Runs (restrict Step fun _ i => RunsAlone t i) s is s' ∧
    (s'.threads t).pc = .start ctx callback .threw

section

variable {s s₁ : System} {t : Tid} {ctx : Ctx} {callback : SampleCallback} {pc : StartPc}

theorem ComesToThrow.step {shared : Shared} {q : Pc} (h : ComesToThrow t ctx callback s₁)
    (hstep : program.SoloStep s t (.fail "") shared q s₁) : ComesToThrow t ctx callback s := by
  obtain ⟨is, s', hruns, hpc⟩ := h
  exact ⟨_, s', .cons ⟨⟨rfl, fun w => by simp⟩, hstep.step⟩ hruns, hpc⟩

/-- An action of the call. -/
theorem exists_startStep {shared : Shared} {q : Pc} (hsolo : Program.Solo s t)
    (hpc : (s.threads t).pc = .start ctx callback pc)
    (hinstr : (Pc.start ctx callback pc).instr = .act pc.takes (startStep ctx callback pc))
    (hf : startStep ctx callback pc t (.fail "") s.shared = some ⟨shared, q, none⟩) :
    ∃ s₁, program.SoloStep s t (.fail "") shared q s₁ :=
  Program.Solo.act (P := program) hsolo (by rw [hpc]; exact hinstr) hf rfl

theorem exists_startNotify {c : CondVar} {q : Pc} (hsolo : Program.Solo s t)
    (hpc : (s.threads t).pc = .start ctx callback pc)
    (hinstr : (Pc.start ctx callback pc).instr = .notify c q) :
    ∃ s₁, program.SoloStep s t (.fail "") s.shared q s₁ :=
  Program.Solo.notify (P := program) hsolo (.fail "") (by rw [hpc]; exact hinstr)

theorem comesToThrow_of_remaining {n : Nat} (hsolo : Program.Solo s t)
    (hpc : (s.threads t).pc = .start ctx callback pc) (hremaining : pc.remaining = some n) :
    ComesToThrow t ctx callback s := by
  induction n generalizing s pc with
  | zero =>
    cases pc with
    | threw => exact ⟨[], s, .nil s, hpc⟩
    | _ => cases hremaining
  | succ n ih =>
    have hnext : ∀ {shared pc' s₁},
        program.SoloStep s t (.fail "") shared (.start ctx callback pc') s₁ →
        pc'.remaining = some n → ComesToThrow t ctx callback s := fun hstep hless =>
      (ih hstep.solo hstep.pc hless).step hstep
    cases pc with
    | record | data | stopping | exited | create | rollbackStopping | rollbackExited | rollbackRecord
    | rollbackData | rollbackReset | rollbackPublish =>
      cases hremaining
      obtain ⟨s₁, hstep⟩ := exists_startStep hsolo hpc rfl rfl
      exact hnext hstep rfl
    | rollbackNotifyFirst | rollbackNotifyLifecycle =>
      cases hremaining
      obtain ⟨s₁, hstep⟩ := exists_startNotify hsolo hpc rfl
      exact hnext hstep rfl
    | _ => cases hremaining

/-- The way to the inspection of the worker. -/
theorem comesToThrow_of_lock (hsolo : Program.Solo s t)
    (hpc : (s.threads t).pc = .start ctx callback .lock) (hjoining : s.shared.impl.joining = false)
    (hself : s.shared.impl.calledFromWorkerThread t = false)
    (hinspect : ∀ s₁ : System, Program.Solo s₁ t → (s₁.threads t).pc = .start ctx callback .inspect →
      s₁.shared = s.shared → (∀ u, u ≠ t → (s₁.threads u).pc = (s.threads u).pc) →
      ComesToThrow t ctx callback s₁) : ComesToThrow t ctx callback s := by
  have hlock : startStep ctx callback .lock t (.fail "") s.shared =
      some ⟨s.shared, .start ctx callback .waitJoining, none⟩ := by
    simp only [startStep, hself, Bool.false_eq_true, if_false]
  obtain ⟨s₁, hstep₁⟩ := exists_startStep hsolo hpc rfl hlock
  obtain ⟨s₂, hstep₂⟩ : ∃ s₂,
      program.SoloStep s₁ t (.fail "") s₁.shared (.start ctx callback .inspect) s₂ :=
    Program.Solo.pass (P := program) hstep₁.solo (.fail "") (by rw [hstep₁.pc]; rfl)
      (show (!s₁.shared.impl.joining) = true by rw [hstep₁.shared, hjoining]; rfl)
  refine .step (.step (hinspect s₂ hstep₂.solo hstep₂.pc ?_ fun u hu => ?_) hstep₂) hstep₁
  · rw [hstep₂.shared, hstep₁.shared]
  · rw [hstep₂.others u hu, hstep₁.others u hu]

/-- Without a worker. -/
theorem comesToThrow_of_vacant (hsolo : Program.Solo s t)
    (hpc : (s.threads t).pc = .start ctx callback .inspect) (hworker : s.shared.impl.worker = none) :
    ComesToThrow t ctx callback s := by
  have hf : ∃ shared saved, startStep ctx callback .inspect t (.fail "") s.shared =
      some ⟨shared, .start ctx callback (.record saved), none⟩ := by
    simp only [startStep, hworker]
    exact ⟨_, _, rfl⟩
  obtain ⟨shared, saved, hf⟩ := hf
  obtain ⟨s₁, hstep⟩ := exists_startStep hsolo hpc rfl hf
  exact (comesToThrow_of_remaining hstep.solo hstep.pc rfl).step hstep

/-- With a worker that has ended. -/
theorem comesToThrow_of_ended {w : Tid} (hsolo : Program.Solo s t)
    (hpc : (s.threads t).pc = .start ctx callback .inspect) (hworker : s.shared.impl.worker = some w)
    (hexited : s.shared.impl.workerExited = true) (hne : w ≠ t) (hended : (s.threads w).pc = .run .ended) :
    ComesToThrow t ctx callback s := by
  have hinspect : startStep ctx callback .inspect t (.fail "") s.shared =
      some
        ⟨{ s.shared with
            impl := { s.shared.impl with worker := none, joining := true }
            handover := some (t, some w) },
          .start ctx callback (.join w), none⟩ := by
    simp only [startStep, hworker, hexited, if_true]
  obtain ⟨s₁, hstep₁⟩ := exists_startStep hsolo hpc rfl hinspect
  have hended₁ : program.ended (s₁.threads w).pc = true := by rw [hstep₁.others w hne, hended]; rfl
  obtain ⟨s₂, hstep₂⟩ : ∃ s₂, program.SoloStep s₁ t (.fail "") (recordJoin w t s₁.shared)
      (.start ctx callback .reaped) s₂ :=
    Program.Solo.join (P := program) hstep₁.solo (.fail "") (by rw [hstep₁.pc]; rfl) hended₁
  obtain ⟨s₃, hstep₃⟩ := exists_startStep hstep₂.solo hstep₂.pc rfl rfl
  obtain ⟨s₄, hstep₄⟩ := exists_startNotify hstep₃.solo hstep₃.pc rfl
  have hshared : s₄.shared.impl.worker = none ∧ s₄.shared.impl.joining = false ∧
      s₄.shared.impl.calledFromWorkerThread t = false := by
    rw [hstep₄.shared, hstep₃.shared, hstep₂.shared, hstep₁.shared]
    exact ⟨rfl, rfl, by simp [Impl.calledFromWorkerThread]⟩
  refine .step (.step (.step (.step ?_ hstep₄) hstep₃) hstep₂) hstep₁
  refine comesToThrow_of_lock hstep₄.solo hstep₄.pc hshared.2.1 hshared.2.2 fun s₅ hsolo₅ hpc₅ hsame _ => ?_
  exact comesToThrow_of_vacant hsolo₅ hpc₅ (hsame ▸ hshared.1)

end

theorem failedStart_completes {config : Config} {s : System} {t : Tid} {ctx : Ctx}
    {callback : SampleCallback} (h : s.Reachable config) (hquiet : s.NoWorker)
    (hsolo : Program.Solo s t) (hjoining : s.shared.impl.joining = false)
    (hpc : (s.threads t).pc = .start ctx callback .lock) : ComesToThrow t ctx callback s := by
  have hstranger : t ∉ s.shared.lifecycle.created := by
    have hstanding := (h.placed t).standing
    have halive := hquiet t
    rw [System.Alive, hpc] at halive
    rw [hpc] at hstanding
    cases ctx with
    | callback k => exact absurd rfl halive
    | outside | deferred => exact hstanding
  have hself : s.shared.impl.calledFromWorkerThread t = false := by
    by_contra hself
    have hactive := (calledFromWorkerThread_iff.mp (by simpa using hself)).2
    exact hstranger (h.lawful.active t hactive)
  refine comesToThrow_of_lock hsolo hpc hjoining hself fun s₁ hsolo₁ hpc₁ hshared hothers => ?_
  cases hworker : s.shared.impl.worker with
  | none => exact comesToThrow_of_vacant hsolo₁ hpc₁ (by rw [hshared, hworker])
  | some w =>
    have hcreated := (h.lawful.handle w (.inl hworker)).1
    have hne : w ≠ t := fun heq => hstranger (heq ▸ hcreated)
    have hended : (s.threads w).pc = .run .ended := by
      have hstanding := (h.placed w).standing
      have hdead := hquiet w
      rw [System.Alive] at hdead
      cases hat : (s.threads w).pc with
      | run pc =>
        rw [hat] at hdead
        simpa [Pc.isWorker] using hdead
      | outside | deferred =>
        rw [hat] at hstanding
        exact absurd hcreated hstanding
      | start ctx _ _ | stop ctx _ _ | bias ctx _ | waitForFirstSample ctx _ | query ctx _
      | destroy ctx _ =>
        rw [hat] at hdead hstanding
        cases ctx with
        | callback k => exact absurd rfl hdead
        | outside | deferred => exact absurd hcreated hstanding
    have hexited := h.exited_of_handle (by rw [hended]; rfl) (.inl hworker)
    exact comesToThrow_of_ended hsolo₁ hpc₁ (by rw [hshared, hworker]) (by rw [hshared]; exact hexited)
      hne (by rw [hothers w hne, hended])

/-- **A `start` that cannot create its thread changes nothing.** -/
theorem failedStart (config : Config) : FailedStart config where
  restores _ _ _ _ _ _ h hpc hruns hpc' := failedStart_restores h hpc hruns hpc'
  rethrows _ _ _ _ _ _ _ _ _ _ _ h hpc hfail hruns hin hstep hout :=
    failedStart_rethrows h hpc hfail hruns hin hstep hout
  completes _ _ _ _ h hquiet hsolo hjoining hpc := failedStart_completes h hquiet hsolo hjoining hpc

end NetFT.Client
