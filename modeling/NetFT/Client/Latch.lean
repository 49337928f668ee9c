/-
# NetFT.Client.Latch — the fault latch and the health snapshot agree.

`FaultLatch::publish` writes the code and the snapshot together.  Four other sections write the state of
the snapshot, and a `start` opens the latch again; when it cannot create a worker, it publishes the
previous fault a second time.

* `Impl.Latched`: a latched fault is the state and the code of the snapshot.
* `Pc.Latch` is what a thread relies on where it stands: who writes the state has seen the latch open,
  and a `start` in progress has saved a latch and a snapshot that agree.
* **`System.Reachable.latch`**: both hold in every reachable state.
-/
import NetFT.Client.Ownership

namespace NetFT.Client

set_option autoImplicit false

open Library.Threads (Tid Effect Program)

/-! ## What holds of the latch -/

/-- A latched fault is the state and the code of the snapshot. -/
def Impl.Latched (c : Impl) : Prop :=
  c.faultLatch ≠ .None → c.health.state = .Faulted ∧ c.health.faultCode = c.faultLatch

/-- The worker before it publishes a fault. -/
def RunPc.unfaulted : RunPc → Bool
  | .publishNotifyFirst | .publishNotifyLifecycle | .finishClose | .finishExited | .finishFaulted
  | .finishNotifyFirst | .finishNotifyLifecycle | .ended => false
  | _ => true

/-- The copies of a `start` that has opened the latch. -/
def StartPc.kept : StartPc → Option Saved
  | .stopping saved | .exited saved | .create saved | .rollbackStopping saved | .rollbackExited saved
  | .rollbackRecord saved | .rollbackData saved | .rollbackReset saved | .rollbackPublish saved =>
    some saved
  | _ => none

/-- The copies of a `start` that has saved the code, and not yet the snapshot. -/
def StartPc.seen : StartPc → Option Saved
  | .record saved | .data saved => some saved
  | _ => none

/-- Where `stop` has seen the latch open. -/
def StopPc.unfaulted : StopPc → Bool
  | .idleState | .joinedState => true
  | _ => false

namespace Pc

/-- The thread has seen the latch open, and nobody else can close it. -/
def unfaulted : Pc → Bool
  | .outside | .deferred => false
  | .start ctx _ pc => ctx.isCallback || pc.kept.isSome
  | .stop ctx _ pc => ctx.isCallback || pc.unfaulted
  | .bias ctx _ | .waitForFirstSample ctx _ | .query ctx _ | .destroy ctx _ => ctx.isCallback
  | .run pc => pc.unfaulted

/-- The copies that a thread keeps. -/
def kept : Pc → Option Saved
  | .start _ _ pc => pc.kept
  | _ => none

/-- The copies whose fault it has seen. -/
def seen : Pc → Option Saved
  | .start _ _ pc => pc.seen
  | _ => none

/-- The control points whose action moves the latch. -/
def latching : Pc → Bool
  | .start _ _ (.data _) | .start _ _ (.rollbackReset _) | .start _ _ (.rollbackPublish _) => true
  | .run (.publish _ _) => true
  | _ => false

/-- What a thread relies on about the latch. -/
structure Latch (p : Pc) (c : Impl) : Prop where
  unfaulted : p.unfaulted = true → c.faultLatch = .None
  seen : ∀ saved, p.seen = some saved → saved.fault = c.faultLatch
  kept : ∀ saved, p.kept = some saved → saved.fault ≠ .None →
    saved.health.state = .Faulted ∧ saved.health.faultCode = saved.fault

variable {p : Pc}

theorem owning_of_unfaulted (h : p.unfaulted = true) : p.owning = true := by
  cases p with
  | start ctx callback pc =>
    cases hctx : ctx.isCallback with
    | true => simp [owning, isWorker, hctx]
    | false =>
      simp only [unfaulted, hctx, Bool.false_or] at h
      cases pc with
      | stopping | exited | create | rollbackStopping | rollbackExited | rollbackRecord | rollbackData
      | rollbackReset | rollbackPublish => exact Bool.or_true _
      | _ => cases h
  | stop ctx caller pc =>
    cases hctx : ctx.isCallback with
    | true => simp [owning, isWorker, hctx]
    | false =>
      simp only [unfaulted, hctx, Bool.false_or] at h
      cases pc with
      | idleState | joinedState => exact Bool.or_true _
      | _ => cases h
  | bias ctx _ | waitForFirstSample ctx _ | query ctx _ | destroy ctx _ =>
    rw [owning, show isWorker _ = ctx.isCallback from rfl, show ctx.isCallback = true from h,
      Bool.true_or]
  | run pc => cases pc <;> first | rfl | cases h
  | _ => cases h

theorem owning_of_seen (h : p.seen ≠ none) : p.owning = true := by
  cases p with
  | start ctx callback pc =>
    cases pc with
    | record | data => exact Bool.or_true _
    | _ => exact absurd rfl h
  | _ => exact absurd rfl h

/-- Whoever latches owns the client. -/
theorem owning_of_latching (h : p.latching = true) : p.owning = true := by
  cases p with
  | start ctx callback pc =>
    cases pc with
    | data | rollbackReset | rollbackPublish => exact Bool.or_true _
    | _ => cases h
  | run pc => cases pc <;> first | rfl | cases h
  | _ => cases h

/-- What a thread relies on depends on the latch alone. -/
theorem Latch.congr {c c' : Impl} (h : p.Latch c) (hlatch : c'.faultLatch = c.faultLatch) :
    p.Latch c' := ⟨by rw [hlatch]; exact h.unfaulted, by rw [hlatch]; exact h.seen, h.kept⟩

/-- A control point at which the thread relies on nothing. -/
theorem Latch.of_none {c : Impl} (hunfaulted : p.unfaulted = false) (hseen : p.seen = none)
    (hkept : p.kept = none) : p.Latch c :=
  ⟨by simp [hunfaulted], by simp [hseen], by simp [hkept]⟩

end Pc

/-! ## Actions -/

namespace Impl.Latched

variable {c c' : Impl}

theorem congr (h : c.Latched) (hlatch : c'.faultLatch = c.faultLatch) (hhealth : c'.health = c.health) :
    c'.Latched := by
  unfold Latched
  rw [hlatch, hhealth]
  exact h

/-- An open latch is in order. -/
theorem of_none (h : c.faultLatch = .None) : c.Latched := fun hne => absurd h hne

/-- The first fault is latched, with its state; later ones change nothing. -/
theorem publishFault (h : c.Latched) (code : FaultCode) (message : String) :
    (c.publishFault code message).Latched := by
  unfold Impl.publishFault
  split_ifs with hnone
  · exact fun _ => ⟨rfl, rfl⟩
  · exact h

end Impl.Latched

section

variable {t : Tid} {choice : Choice} {s : Shared} {e : Effect Shared Pc}

theorem Ctx.resume_latch (ctx : Ctx) {c : Impl} (h : ctx.isCallback = true → c.faultLatch = .None) :
    ctx.resume.Latch c := by
  cases ctx with
  | callback k => exact ⟨fun _ => h rfl, fun _ => (by rintro ⟨⟩), fun _ => (by rintro ⟨⟩)⟩
  | _ => exact .of_none rfl rfl rfl

/-- A step of `start` keeps the latch in order. -/
theorem startStep_latch {ctx : Ctx} {callback : SampleCallback} {pc : StartPc}
    (h : startStep ctx callback pc t choice s = some e) (hlatched : s.impl.Latched)
    (hp : (Pc.start ctx callback pc).Latch s.impl)
    (hctx : pc.knows.unoccupied = true → ctx.isCallback = false) :
    e.shared.impl.Latched ∧ e.next.Latch e.shared.impl := by
  obtain ⟨hunfaulted, hseen, hkept⟩ := hp
  have hopen : ctx.isCallback = true → s.impl.faultLatch = .None := fun hcallback =>
    hunfaulted (by simp [Pc.unfaulted, hcallback])
  have hquiet : ∀ {pc' : StartPc} {c' : Impl}, pc'.seen = none → pc'.kept = none →
      (ctx.isCallback = true → c'.faultLatch = .None) → (Pc.start ctx callback pc').Latch c' := by
    intro pc' c' hseen hkept hopen
    refine ⟨fun hnext => hopen ?_, by simp [Pc.seen, hseen], by simp [Pc.kept, hkept]⟩
    simpa [Pc.unfaulted, hkept] using hnext
  have hleave : ∀ {e}, (some ⟨s.leave t, ctx.resume, none⟩ : Option (Effect Shared Pc)) = some e →
      e.shared.impl.Latched ∧ e.next.Latch e.shared.impl := by
    rintro e ⟨⟩
    exact ⟨hlatched, ctx.resume_latch hopen⟩
  cases pc with
  | lock =>
    simp only [startStep] at h
    split_ifs at h
    · exact hleave h
    · cases h
      exact ⟨hlatched, hquiet rfl rfl hopen⟩
  | inspect =>
    simp only [startStep] at h
    split at h
    · split_ifs at h <;> cases h
      · exact ⟨hlatched.congr rfl rfl, hquiet rfl rfl hopen⟩
      · exact ⟨hlatched, hquiet rfl rfl hopen⟩
    · cases h
      refine ⟨hlatched.congr rfl rfl, ?_, ?_, ?_⟩
      · exact fun hnext => hopen (by simpa [Pc.unfaulted, StartPc.kept] using hnext)
      · rintro saved ⟨⟩
        rfl
      · rintro saved ⟨⟩
  | faulted =>
    simp only [startStep] at h
    split_ifs at h
    · cases h
      exact ⟨hlatched, hquiet rfl rfl hopen⟩
    · exact hleave h
  | reaped =>
    cases h
    exact ⟨hlatched.congr rfl rfl, hquiet rfl rfl hopen⟩
  | record saved =>
    cases h
    refine ⟨hlatched.congr rfl rfl, ?_, ?_, ?_⟩
    · exact fun hnext => hopen (by simpa [Pc.unfaulted, StartPc.kept] using hnext)
    · rintro saved' ⟨⟩
      exact hseen saved rfl
    · rintro saved' ⟨⟩
  | data saved =>
    cases h
    refine ⟨.of_none rfl, fun _ => rfl, fun saved' => (by rintro ⟨⟩), ?_⟩
    -- what is saved here agrees, because it did before
    rintro saved' ⟨⟩ hfault
    rw [hseen saved rfl] at hfault ⊢
    exact hlatched hfault
  | stopping saved | exited saved | rollbackStopping saved | rollbackExited saved
  | rollbackRecord saved | rollbackData saved =>
    cases h
    have hnone : s.impl.faultLatch = .None := hunfaulted (Bool.or_true _)
    exact ⟨.of_none hnone, fun _ => hnone, fun saved' => (by rintro ⟨⟩), hkept⟩
  | create saved =>
    have hnone : s.impl.faultLatch = .None := hunfaulted (Bool.or_true _)
    rcases create_cases (t := t) h with ⟨w, rfl⟩ | rfl
    · exact ⟨.of_none hnone, hquiet rfl rfl fun _ => hnone⟩
    · exact ⟨.of_none hnone, fun _ => hnone, fun saved' => (by rintro ⟨⟩), hkept⟩
  | rollbackReset saved =>
    cases h
    exact ⟨.of_none rfl, fun _ => rfl, fun saved' => (by rintro ⟨⟩), hkept⟩
  | rollbackPublish saved =>
    cases h
    refine ⟨?_, hquiet rfl rfl fun hcallback => ?_⟩
    · split_ifs
      · exact hlatched.publishFault _ _
      · exact hlatched
    · rw [hctx rfl] at hcallback
      cases hcallback
  | returned | threw => exact hleave h
  | _ => exact absurd h (by simp [startStep])

/-- So does a step of `stop`. -/
theorem stopStep_latch {ctx : Ctx} {caller : Caller} {pc : StopPc}
    (h : stopStep ctx caller pc t choice s = some e) (hlatched : s.impl.Latched)
    (hp : (Pc.stop ctx caller pc).Latch s.impl) :
    e.shared.impl.Latched ∧ e.next.Latch e.shared.impl := by
  have hopen : ctx.isCallback = true → s.impl.faultLatch = .None := fun hcallback =>
    hp.unfaulted (by simp [Pc.unfaulted, hcallback])
  have hquiet : ∀ {caller' : Caller} {pc' : StopPc} {c' : Impl}, c'.faultLatch = s.impl.faultLatch →
      (pc'.unfaulted = true → s.impl.faultLatch = .None) → (Pc.stop ctx caller' pc').Latch c' := by
    intro caller' pc' c' hlatch hnext
    refine ⟨fun hor => ?_, fun saved => (by rintro ⟨⟩), fun saved => (by rintro ⟨⟩)⟩
    rw [hlatch]
    simp only [Pc.unfaulted, Bool.or_eq_true] at hor
    exact hor.elim hopen hnext
  cases pc with
  | lock | command | joined =>
    cases h
    exact ⟨hlatched.congr rfl rfl, hquiet rfl (by rintro ⟨⟩)⟩
  | self =>
    simp only [stopStep] at h
    split_ifs at h
    · cases h
      exact ⟨hlatched, hquiet rfl (by rintro ⟨⟩)⟩
    · cases h
      exact ⟨hlatched, hquiet rfl (by rintro ⟨⟩)⟩
    · split at h <;> cases h <;> exact ⟨hlatched.congr rfl rfl, hquiet rfl (by rintro ⟨⟩)⟩
  | idleFaulted | relock =>
    -- the state is written only when the latch has been seen open
    have hfaulted : s.impl.faulted = false → s.impl.faultLatch = .None := by simp [Impl.faulted]
    cases hcase : s.impl.faulted with
    | true =>
      simp only [stopStep, hcase, if_true] at h
      cases h
      exact ⟨hlatched, hquiet rfl (by rintro ⟨⟩)⟩
    | false =>
      simp only [stopStep, hcase, Bool.false_eq_true, if_false] at h
      cases h
      exact ⟨hlatched, hquiet rfl fun _ => hfaulted hcase⟩
  | idleState | joinedState =>
    cases h
    have hnone : s.impl.faultLatch = .None := hp.unfaulted (Bool.or_true _)
    exact ⟨.of_none hnone, hquiet rfl (by rintro ⟨⟩)⟩
  | returned =>
    have hnext : ∀ pc', (Pc.destroy ctx pc').Latch s.impl := fun pc' =>
      ⟨hopen, fun saved => (by rintro ⟨⟩), fun saved => (by rintro ⟨⟩)⟩
    cases caller <;> cases h
    · exact ⟨hlatched, ctx.resume_latch hopen⟩
    · exact ⟨hlatched, hnext .enqueue⟩
    · exact ⟨hlatched, hquiet rfl (by rintro ⟨⟩)⟩
    · exact ⟨hlatched, hnext .free⟩
  | _ => exact absurd h (by simp [stopStep])

/-- So does a step of the worker. -/
theorem RunPc.step_latch {pc pc' : RunPc} {c c' : Impl} {wire wire' : Wire}
    (h : pc.step choice c wire = some (c', wire', pc')) (hlatched : c.Latched)
    (hopen : pc.unfaulted = true → c.faultLatch = .None) :
    c'.Latched ∧ (pc'.unfaulted = true → c'.faultLatch = .None) := by
  cases pc with
  | publish code message =>
    cases h
    exact ⟨hlatched.publishFault code message, by rintro ⟨⟩⟩
  | finishClose | finishExited =>
    cases h
    exact ⟨hlatched.congr rfl rfl, by rintro ⟨⟩⟩
  | finishFaulted =>
    cases h
    refine ⟨hlatched, fun hnext => ?_⟩
    split_ifs at hnext with hfaulted
    · cases hnext
    · simpa [Impl.faulted] using hfaulted
  | publishNotifyFirst | publishNotifyLifecycle | finishNotifyFirst | finishNotifyLifecycle | ended =>
    cases h
  | deliver k =>
    have hnone := hopen rfl
    cases h
    exact ⟨.of_none hnone, fun _ => hnone⟩
  | _ =>
    have hnone := (step_frame h (by simp) (by simp) (by simp)).faultLatch.trans (hopen rfl)
    exact ⟨.of_none hnone, fun _ => hnone⟩

theorem beginCall_latch {ctx : Ctx} {call : Call} (h : beginCall ctx t call s = some e)
    (hopen : ctx.isCallback = true → s.impl.faultLatch = .None) :
    e.shared.impl = s.impl ∧ e.next.Latch s.impl := by
  refine ⟨beginCall_impl h, ?_⟩
  have hor : ∀ {b : Bool}, b = false → (ctx.isCallback || b) = true → s.impl.faultLatch = .None :=
    fun hb hnext => hopen (by simpa [hb] using hnext)
  cases call <;> simp only [beginCall] at h <;> split at h <;> try contradiction
  · cases h
    exact ⟨hor rfl, fun saved => (by rintro ⟨⟩), fun saved => (by rintro ⟨⟩)⟩
  · cases h
    exact ⟨hor rfl, fun saved => (by rintro ⟨⟩), fun saved => (by rintro ⟨⟩)⟩
  · cases h
    exact ⟨hopen, fun saved => (by rintro ⟨⟩), fun saved => (by rintro ⟨⟩)⟩
  · cases h
    exact ⟨hopen, fun saved => (by rintro ⟨⟩), fun saved => (by rintro ⟨⟩)⟩
  · cases h
    exact ⟨hopen, fun saved => (by rintro ⟨⟩), fun saved => (by rintro ⟨⟩)⟩
  · split_ifs at h
    cases h
    exact ⟨hopen, fun saved => (by rintro ⟨⟩), fun saved => (by rintro ⟨⟩)⟩

/-- **Every action keeps the latch and the snapshot in agreement.** -/
theorem action_latch {p : Pc} (h : p.action t choice s = some e) (hlatched : s.impl.Latched)
    (hp : p.Latch s.impl) (hworker : p.knows.unoccupied = true → p.isWorker = false) :
    e.shared.impl.Latched ∧ e.next.Latch e.shared.impl := by
  cases p with
  | start ctx callback pc => exact startStep_latch h hlatched hp hworker
  | stop ctx caller pc => exact stopStep_latch h hlatched hp
  | bias ctx pc =>
    have hquiet : ∀ {pc' : BiasPc} {c' : Impl}, c'.faultLatch = s.impl.faultLatch →
        (Pc.bias ctx pc').Latch c' := fun hlatch =>
      ⟨fun hctx => hlatch ▸ hp.unfaulted hctx, fun saved => (by rintro ⟨⟩), fun saved => (by rintro ⟨⟩)⟩
    cases pc with
    | send found | restart =>
      simp only [Pc.action, biasStep] at h
      split at h <;> cases h <;> exact ⟨hlatched, hquiet rfl⟩
    | threw | returned =>
      cases h
      exact ⟨hlatched, ctx.resume_latch hp.unfaulted⟩
    | check =>
      simp only [Pc.action, biasStep] at h
      cases h
      exact ⟨hlatched, by split <;> exact hquiet rfl⟩
    | _ =>
      cases h
      exact ⟨hlatched.congr rfl rfl, hquiet rfl⟩
  | waitForFirstSample ctx pc =>
    have hquiet : ∀ pc', (Pc.waitForFirstSample ctx pc').Latch s.impl := fun pc' =>
      ⟨hp.unfaulted, fun saved => (by rintro ⟨⟩), fun saved => (by rintro ⟨⟩)⟩
    cases pc with
    | enter =>
      simp only [Pc.action, waitStep] at h
      split at h
      · cases h
        exact ⟨hlatched, ctx.resume_latch hp.unfaulted⟩
      · split_ifs at h <;> cases h <;> exact ⟨hlatched, hquiet _⟩
    | waiting captured => cases h
    | final captured =>
      cases h
      exact ⟨hlatched, hquiet _⟩
    | returned result =>
      cases h
      exact ⟨hlatched, ctx.resume_latch hp.unfaulted⟩
  | query ctx q =>
    cases q <;> cases h <;> exact ⟨hlatched.congr rfl rfl, (ctx.resume_latch hp.unfaulted).congr rfl⟩
  | destroy ctx pc =>
    cases pc with
    | check =>
      cases h
      refine ⟨hlatched, ?_, fun saved => (by rintro ⟨⟩), fun saved => (by rintro ⟨⟩)⟩
      split_ifs <;> exact fun hnext => hp.unfaulted (by simpa [Pc.unfaulted, StopPc.unfaulted] using hnext)
    | _ =>
      cases h
      exact ⟨hlatched, ctx.resume_latch hp.unfaulted⟩
  | run pc =>
    rcases runStep_cases h with ⟨k, call, rfl, hcall⟩ | ⟨impl, sessions, next, hstep, rfl⟩
    · obtain ⟨himpl, hnext⟩ := beginCall_latch hcall fun _ => hp.unfaulted rfl
      rw [himpl]
      exact ⟨hlatched, hnext⟩
    · obtain ⟨hlatched', hopen⟩ := RunPc.step_latch hstep hlatched hp.unfaulted
      exact ⟨hlatched', hopen, fun saved => (by rintro ⟨⟩), fun saved => (by rintro ⟨⟩)⟩
  | outside =>
    simp only [Pc.action, outsideStep] at h
    split at h
    · obtain ⟨himpl, hnext⟩ := beginCall_latch h (by rintro ⟨⟩)
      rw [himpl]
      exact ⟨hlatched, hnext⟩
    · cases h
  | deferred =>
    simp only [Pc.action, deferredStep] at h
    split_ifs at h
    cases h
    exact ⟨hlatched, .of_none rfl rfl rfl⟩

/-- Away from the sections that open or close the latch it stays as it is. -/
theorem action_faultLatch {p : Pc} (h : p.action t choice s = some e) (hlatching : p.latching = false) :
    e.shared.impl.faultLatch = s.impl.faultLatch := by
  cases p with
  | start ctx callback pc =>
    cases pc with
    | data | rollbackReset | rollbackPublish => cases hlatching
    | _ =>
      simp only [Pc.action, startStep] at h
      grind [Impl.clearLastDelivery, Impl.restoreData, Shared.leave]
  | stop ctx caller pc =>
    cases pc <;> cases caller <;> simp only [Pc.action, stopStep] at h <;>
      grind [Impl.setSessionStarted, Impl.shutdownTransport, Impl.setState, Shared.leave]
  | run pc =>
    rcases runStep_cases h with ⟨k, call, -, hcall⟩ | ⟨impl, sessions, next, hstep, rfl⟩
    · rw [beginCall_impl hcall]
    · cases pc with
      | publish => cases hlatching
      | deliver | finishExited => cases hstep; rfl
      | _ => exact (RunPc.step_frame hstep (by simp) (by simp) (by simp)).faultLatch
  | _ =>
    rcases action_impl h rfl with himpl | ⟨-, himpl⟩ | ⟨now, -, himpl⟩ <;> rw [himpl] <;> rfl

end

theorem RunPc.afterRecord_unfaulted (l : Loop) (outcome : Option SessionResult) :
    (afterRecord l outcome).unfaulted = true := by
  cases outcome <;> rfl

/-- Notifies and waits that are over open nothing. -/
theorem passes_latch {p q : Pc} {s : Shared} (h : program.Passes p q s) {c : Impl} (hp : p.Latch c) :
    q.Latch c := by
  have hsame : ∀ {p q : Pc}, p.Latch c → q.unfaulted = p.unfaulted → q.seen = p.seen →
      q.kept = p.kept → q.Latch c := fun hp hunfaulted hseen hkept =>
    ⟨hunfaulted ▸ hp.unfaulted, hseen ▸ hp.seen, hkept ▸ hp.kept⟩
  cases goesOn_of_passes h with
  | deliveredLifecycle k => exact hsame hp (RunPc.afterRecord_unfaulted _ _) rfl rfl
  | _ => exact hsame hp rfl rfl rfl

/-! ## Reachable states -/

/-- **In every reachable state a latched fault is what the snapshot says.** -/
theorem System.Reachable.latch {config : Config} {s : System} (h : s.Reachable config) :
    s.shared.impl.Latched ∧ ∀ t, (s.threads t).pc.Latch s.shared.impl := by
  refine Library.Reachable.invariant
    (I := fun s : System => s.shared.impl.Latched ∧ ∀ t, (s.threads t).pc.Latch s.shared.impl) ?_ ?_ h
  · refine ⟨.of_none rfl, fun t => ?_⟩
    simp only [System.init]
    split_ifs <;> exact .of_none rfl rfl rfl
  · rintro s i s' hreach ⟨hlatched, hpoint⟩ hstep
    replace hreach : s.Reachable config := hreach
    by_cases hact : ∃ takes f, (s.threads i.tid).pc.instr = .act takes f
    · obtain ⟨takes, f, hinstr⟩ := hact
      obtain ⟨choice, e, -, hf, hshared, hpc, hothers⟩ := hreach.consistent.step_act hstep hinstr
      obtain ⟨-, rfl⟩ := Pc.instr_act hinstr
      have hnext := action_latch hf hlatched (hpoint i.tid) fun hunoccupied =>
        Bool.not_eq_true _ ▸ hreach.noWorker_of_unoccupied hunoccupied i.tid
      rw [hshared]
      refine ⟨hnext.1, fun u => ?_⟩
      by_cases hu : u = i.tid
      · rw [hu, hpc]
        exact hnext.2
      rcases hothers u hu with hsame | ⟨-, hspawned⟩
      · rw [hsame]
        cases hlatching : (s.threads i.tid).pc.latching with
        | false => exact (hpoint u).congr (action_faultLatch hf hlatching)
        | true =>
          -- the other threads do not own the data
          have hnot : (s.threads u).pc.owning ≠ true := fun howns =>
            hu (hreach.owner_unique howns (Pc.owning_of_latching hlatching))
          refine ⟨fun hunfaulted => ?_, fun saved hseen => ?_, (hpoint u).kept⟩
          · exact absurd (Pc.owning_of_unfaulted hunfaulted) hnot
          · exact absurd (Pc.owning_of_seen (by simp [hseen])) hnot
      · rw [spawned_run hf hspawned]
        refine ⟨fun _ => ?_, fun saved => (by rintro ⟨⟩), fun saved => (by rintro ⟨⟩)⟩
        by_cases hcreate : ∃ ctx callback saved, (s.threads i.tid).pc = .start ctx callback (.create saved)
        · obtain ⟨ctx, callback, saved, hat⟩ := hcreate
          rw [action_faultLatch hf (by rw [hat]; rfl)]
          exact (hpoint i.tid).unfaulted (by rw [hat]; exact Bool.or_true _)
        · have hnone := action_spawned hf fun ctx callback saved hat => hcreate ⟨ctx, callback, saved, hat⟩
          rw [hnone.1] at hspawned
          cases hspawned
    · rw [(shared_of_not_act hstep hact).1]
      refine ⟨hlatched, fun u => ?_⟩
      exact point_of_not_act (P := (·.Latch s.shared.impl)) hstep hact
        (fun p q hpass => passes_latch hpass)
        (fun _ _ _ h => ⟨h.unfaulted, fun saved => (by rintro ⟨⟩), fun saved => (by rintro ⟨⟩)⟩)
        (fun _ _ _ h => ⟨h.unfaulted, fun saved => (by rintro ⟨⟩), fun saved => (by rintro ⟨⟩)⟩)
        (hpoint u)

end NetFT.Client
