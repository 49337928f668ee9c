/-
# NetFT.Client.FaultReport — when `health()` contradicts itself about a fault.

`health()` takes the code from the latch, and sets the state if there is one.  So it contradicts itself
when the latch is open and the snapshot it copies says Faulted.  A `start` that cannot create its worker
brings that about: it puts the snapshot back in one section, and closes the latch again in a later one.

* `Pc.restored`: the control points between these sections, with what was put back.
* `Pc.Whole`: what a thread relies on about the state in the snapshot.
* **`healthConsistent_iff`**: `health()` agrees with itself in exactly the reachable states in which no
  thread is between these sections after a fault.
-/
import NetFT.Client.Latch

namespace NetFT.Client

set_option autoImplicit false

open Library (Runs restrict)
open Library.Threads (Tid Effect Program)

/-! ## The contradiction -/

/-- The snapshot says Faulted, and the latch is open. -/
def Impl.Torn (c : Impl) : Prop := c.faultLatch = .None ∧ c.health.state = .Faulted

/-- `health()` says Faulted if and only if it gives a code. -/
def Impl.HealthConsistent (c : Impl) : Prop :=
  ∀ now, (c.healthAt now).2.state = .Faulted ↔ (c.healthAt now).2.faultCode ≠ .None

/-- A snapshot contradicts itself exactly if it is torn. -/
theorem Impl.healthConsistent_iff_not_torn (c : Impl) : c.HealthConsistent ↔ ¬ c.Torn := by
  have hcode : ∀ now, (c.healthAt now).2.faultCode = c.faultLatch := fun _ => rfl
  have hstate : ∀ now, (c.healthAt now).2.state =
      if c.faultLatch ≠ .None then .Faulted else c.health.state := fun _ => rfl
  constructor
  · rintro h ⟨hlatch, hfaulted⟩
    have := (h 0).mp (by rw [hstate, if_neg (not_not.mpr hlatch), hfaulted])
    exact this ((hcode 0).trans hlatch)
  · intro h now
    rw [hcode, hstate]
    split_ifs with hlatch
    · exact iff_of_true rfl hlatch
    · exact iff_of_false (fun hfaulted => h ⟨not_not.mp hlatch, hfaulted⟩) hlatch

/-- The copies of a `start` that has put the snapshot back, and not yet the latch. -/
def StartPc.restored : StartPc → Option Saved
  | .rollbackReset saved | .rollbackPublish saved => some saved
  | _ => none

namespace Pc

/-- The copies that a thread has put back. -/
def restored : Pc → Option Saved
  | .start _ _ pc => pc.restored
  | _ => none

/-- The thread is between the two sections, after a fault. -/
def Restoring (p : Pc) : Prop := ∃ saved, p.restored = some saved ∧ saved.fault ≠ .None

/-- What a thread relies on about the state in the snapshot, and about the code it publishes. -/
structure Whole (p : Pc) (c : Impl) : Prop where
  kept : ∀ saved, p.kept = some saved → saved.fault = .None → saved.health.state ≠ .Faulted
  restored : ∀ saved, p.restored = some saved → c.health.state = saved.health.state
  publishes : ∀ code message, p = .run (.publish code message) → code ≠ .None

variable {p : Pc} {c c' : Impl}

/-- The rollback is a part of `start`, which owns the client. -/
theorem owning_of_restored (h : p.restored ≠ none) : p.owning = true := by
  cases p with
  | start ctx callback pc =>
    cases pc with
    | rollbackReset | rollbackPublish => exact Bool.or_true _
    | _ => exact absurd rfl h
  | _ => exact absurd rfl h

/-- The copies are those that the `start` has kept. -/
theorem kept_of_restored {saved : Saved} (h : p.restored = some saved) :
    p.kept = some saved ∧ p.unfaulted = true := by
  cases p with
  | start ctx callback pc =>
    cases pc with
    | rollbackReset | rollbackPublish => exact ⟨h, Bool.or_true _⟩
    | _ => cases h
  | _ => cases h

theorem instr_of_restoring (h : p.Restoring) : p.instr = .act p.takes p.action := by
  obtain ⟨saved, hrestored, -⟩ := h
  cases p with
  | start ctx callback pc =>
    cases pc with
    | rollbackReset | rollbackPublish => rfl
    | _ => cases hrestored
  | _ => cases hrestored

/-- It matters what the state in the snapshot is, and nothing else. -/
theorem Whole.congr (h : p.Whole c) (hstate : c'.health.state = c.health.state) : p.Whole c' :=
  ⟨h.kept, by rw [hstate]; exact h.restored, h.publishes⟩

/-- A control point at which the thread relies on nothing. -/
theorem Whole.of_none (hkept : p.kept = none) (hrestored : p.restored = none)
    (hpublish : ∀ code message, p ≠ .run (.publish code message)) : p.Whole c :=
  ⟨by simp [hkept], by simp [hrestored], fun code message h => absurd h (hpublish code message)⟩

end Pc

/-! ## Actions -/

section

variable {t : Tid} {choice : Choice} {s : Shared} {e : Effect Shared Pc} {p : Pc}

theorem Ctx.resume_whole (ctx : Ctx) (c : Impl) : ctx.resume.Whole c := by
  cases ctx <;> exact .of_none rfl rfl (by rintro _ _ ⟨⟩)

theorem Impl.observedHealth_state (c : Impl) (record : RawRecord) (receiveTimes : List TimePoint)
    (rdt : SequenceObservation) (ft : FtSequenceKind) (severity : StatusSeverity) :
    (c.observedHealth record receiveTimes rdt ft severity).state = .Streaming := by
  unfold observedHealth countRdt countFt countSeverity
  cases rdt.kind <;> cases ft <;> cases severity <;> rfl

/-- A record leaves the state, or sets it to Streaming. -/
theorem Impl.prepareRecord_state (c : Impl) (record : RawRecord) (receivedAt : TimePoint) :
    (c.prepareRecord record receivedAt).1.health.state = c.health.state ∨
      (c.prepareRecord record receivedAt).1.health.state = .Streaming := by
  rw [c.prepareRecord_fst]
  unfold observeRecord
  cases hconfiguration : c.health.sensorConfiguration with
  | none =>
    simp only [hconfiguration]
    exact .inl trivial
  | some configuration =>
    simp only [hconfiguration]
    right
    split_ifs <;> exact observedHealth_state _ _ _ _ _ _

theorem Impl.applyConfiguration_state (c : Impl) (configuration : SensorConfiguration) :
    (c.applyConfiguration configuration).health.state = c.health.state := by
  obtain ⟨_, _, h⟩ := c.applyConfiguration_frame configuration
  rw [h]

/-- The worker does not bring a Faulted state about, apart from the latch. -/
theorem RunPc.step_state {pc pc' : RunPc} {c c' : Impl} {wire wire' : Wire}
    (h : pc.step choice c wire = some (c', wire', pc'))
    (hpublish : ∀ code message, pc ≠ .publish code message) :
    c'.health.state = c.health.state ∨ c'.health.state ≠ .Faulted := by
  have hprepare := c.prepareRecord_state
  have happly := c.applyConfiguration_state
  cases pc <;> simp only [step, stepOpen, stepLoop, stepClose] at h <;>
    grind [Impl.setState, Impl.connectTransport, Impl.setSessionStarted, Impl.resetSequences,
      Impl.countTimeout, Impl.countMalformed, Impl.clearMalformed, Impl.recordCallbackError,
      Impl.closeSession, Impl.closeTransport, Impl.enterBackoff, Impl.deliverSample]

/-- The worker publishes only faults. -/
theorem RunPc.step_publishes {pc : RunPc} {c c' : Impl} {wire wire' : Wire} {code : FaultCode}
    {message : String} (h : pc.step choice c wire = some (c', wire', .publish code message)) :
    code ≠ .None := by
  have hfault := faultFor_eq_none_iff
  have hrecord : ∀ l outcome, afterRecord l outcome ≠ .publish code message := by
    intro l outcome
    cases outcome <;> simp [afterRecord]
  cases pc <;> simp only [step, stepOpen, stepLoop, stepClose] at h <;>
    grind [endSession]

/-- Only an owner writes the state. -/
theorem action_state (h : p.action t choice s = some e) (howning : p.owning = false) :
    e.shared.impl.health.state = s.impl.health.state := by
  cases p with
  | start ctx callback pc =>
    cases pc with
    | record | data | stopping | exited | create | rollbackStopping | rollbackExited | rollbackRecord
    | rollbackData | rollbackReset | rollbackPublish =>
      exact Bool.noConfusion ((Bool.or_true _).symm.trans howning)
    | _ =>
      simp only [Pc.action, startStep] at h
      grind [Shared.leave]
  | stop ctx caller pc =>
    cases pc with
    | idleState | joinedState =>
      exact Bool.noConfusion ((Bool.or_true _).symm.trans howning)
    | _ =>
      cases caller <;> simp only [Pc.action, stopStep] at h <;>
        grind [Impl.setSessionStarted, Impl.shutdownTransport, Shared.leave]
  | run pc =>
    cases pc with
    | ended => cases h
    | _ => cases howning
  | _ =>
    rcases action_impl h rfl with himpl | ⟨-, himpl⟩ | ⟨now, -, himpl⟩ <;> rw [himpl] <;> rfl

theorem beginCall_whole {ctx : Ctx} {call : Call} (h : beginCall ctx t call s = some e) (c : Impl) :
    e.next.Whole c := by
  cases call <;> simp only [beginCall] at h <;> split at h <;> try contradiction
  case destroy =>
    split_ifs at h
    cases h
    exact .of_none rfl rfl (by rintro _ _ ⟨⟩)
  all_goals
    cases h
    exact .of_none rfl rfl (by rintro _ _ ⟨⟩)

/-- A section that leaves the latch alone, and does not make the state Faulted, tears nothing. -/
theorem torn_of_same {c c' : Impl} (hlatch : c'.faultLatch = c.faultLatch)
    (hstate : c'.health.state = c.health.state ∨ c'.health.state ≠ .Faulted) (h : c'.Torn) : c.Torn := by
  rcases hstate with hsame | hnot
  · exact ⟨hlatch ▸ h.1, hsame ▸ h.2⟩
  · exact absurd h.2 hnot

theorem Impl.not_torn_publishFault (c : Impl) {code : FaultCode} (hcode : code ≠ .None)
    (message : String) : ¬ (c.publishFault code message).Torn := by
  unfold publishFault
  split_ifs with hnone
  · exact fun h => hcode h.1
  · exact fun h => hnone h.1

/-- **A step of `start`** keeps what threads rely on; the snapshot is torn only in the rollback. -/
theorem startStep_whole {ctx : Ctx} {callback : SampleCallback} {pc : StartPc}
    (h : startStep ctx callback pc t choice s = some e) (hlatch : (Pc.start ctx callback pc).Latch s.impl)
    (hp : (Pc.start ctx callback pc).Whole s.impl)
    (htorn : (Pc.start ctx callback pc).owning = true → s.impl.Torn →
      (Pc.start ctx callback pc).Restoring) :
    e.next.Whole e.shared.impl ∧
      ((Pc.start ctx callback pc).owning = true → e.shared.impl.Torn → e.next.Restoring) := by
  have hquiet : ∀ {pc' : StartPc} {c' : Impl}, pc'.kept = none → pc'.restored = none →
      (Pc.start ctx callback pc').Whole c' := fun hkept hrestored =>
    .of_none hkept hrestored (by rintro _ _ ⟨⟩)
  have hkeeps : ∀ {pc' : StartPc} {c' : Impl}, pc'.kept = pc.kept → pc'.restored = none →
      (Pc.start ctx callback pc').Whole c' := fun hkept hrestored =>
    ⟨by rw [show Pc.kept (.start ctx callback _) = pc.kept from hkept]; exact hp.kept,
      by simp [Pc.restored, hrestored], by rintro _ _ ⟨⟩⟩
  -- away from the rollback nothing is torn before the section, nor after it
  have hsame : ∀ {c' : Impl}, pc.restored = none → c'.faultLatch = s.impl.faultLatch →
      c'.health.state = s.impl.health.state → (Pc.start ctx callback pc).owning = true → ¬ c'.Torn := by
    rintro c' hrestored hlatch hstate howning hc'
    obtain ⟨saved, hsaved, -⟩ := htorn howning (torn_of_same hlatch (.inl hstate) hc')
    rw [show (Pc.start ctx callback pc).restored = none from hrestored] at hsaved
    cases hsaved
  cases pc with
  | lock | inspect | faulted =>
    simp only [startStep] at h
    repeat' split at h
    all_goals
      cases h
      first
        | exact ⟨hquiet rfl rfl, fun howning hc => absurd hc (hsame rfl rfl rfl howning)⟩
        | exact ⟨ctx.resume_whole _, fun howning hc => absurd hc (hsame rfl rfl rfl howning)⟩
  | reaped | record saved =>
    cases h
    exact ⟨hquiet rfl rfl, fun howning hc => absurd hc (hsame rfl rfl rfl howning)⟩
  | data saved =>
    cases h
    refine ⟨⟨fun saved' => ?_, fun saved' => (by rintro ⟨⟩), by rintro _ _ ⟨⟩⟩, fun _ hc => by cases hc.2⟩
    rintro ⟨⟩ hnone hfaulted
    have hopen : s.impl.faultLatch = .None := (hlatch.seen saved rfl).symm.trans hnone
    obtain ⟨_, hsaved, -⟩ := htorn (Bool.or_true _) ⟨hopen, hfaulted⟩
    cases hsaved
  | stopping saved | exited saved | rollbackStopping saved | rollbackExited saved
  | rollbackRecord saved =>
    cases h
    exact ⟨hkeeps rfl rfl, fun howning hc => absurd hc (hsame rfl rfl rfl howning)⟩
  | create saved =>
    rcases create_cases (t := t) h with ⟨w, rfl⟩ | rfl
    · exact ⟨hquiet rfl rfl, fun howning hc => absurd hc (hsame rfl rfl rfl howning)⟩
    · exact ⟨hkeeps rfl rfl, fun howning hc => absurd hc (hsame rfl rfl rfl howning)⟩
  | rollbackData saved =>
    cases h
    refine ⟨⟨hp.kept, ?_, by rintro _ _ ⟨⟩⟩, fun _ hc => ⟨saved, rfl, fun hnone => ?_⟩⟩
    · rintro saved' ⟨⟩
      rfl
    · exact hp.kept saved rfl hnone hc.2
  | rollbackReset saved =>
    cases h
    have hopen : s.impl.faultLatch = .None := hlatch.unfaulted (Bool.or_true _)
    refine ⟨⟨hp.kept, hp.restored, by rintro _ _ ⟨⟩⟩, fun howning hc => ?_⟩
    exact htorn howning ⟨hopen, hc.2⟩
  | rollbackPublish saved =>
    cases h
    refine ⟨hquiet rfl rfl, fun howning hc => absurd hc ?_⟩
    split_ifs with hfault
    · exact s.impl.not_torn_publishFault hfault _
    · intro hc
      have hstate := hp.restored saved rfl
      exact hp.kept saved rfl (not_not.mp hfault) (hstate.symm.trans hc.2)
  | returned | threw =>
    cases h
    exact ⟨ctx.resume_whole _, fun howning hc => absurd hc (hsame rfl rfl rfl howning)⟩
  | _ => exact absurd h (by simp [startStep])

/-- `stop` relies on nothing. -/
theorem stopStep_whole {ctx : Ctx} {caller : Caller} {pc : StopPc}
    (h : stopStep ctx caller pc t choice s = some e) {c : Impl} : e.next.Whole c := by
  cases pc <;> cases caller <;> simp only [stopStep] at h <;> repeat' split at h
  all_goals first
    | contradiction
    | (cases h; exact .of_none rfl rfl (by rintro _ _ ⟨⟩))
    | (cases h; exact ctx.resume_whole _)

/-- It never sets the state to Faulted. -/
theorem stopStep_state {ctx : Ctx} {caller : Caller} {pc : StopPc}
    (h : stopStep ctx caller pc t choice s = some e) :
    e.shared.impl.health.state = s.impl.health.state ∨ e.shared.impl.health.state ≠ .Faulted := by
  cases pc <;> cases caller <;> simp only [stopStep] at h <;>
    grind [Impl.setSessionStarted, Impl.shutdownTransport, Impl.setState, Shared.leave]

theorem biasStep_whole {ctx : Ctx} {pc : BiasPc} (h : biasStep ctx pc t choice s = some e) {c : Impl} :
    e.next.Whole c := by
  cases pc <;> simp only [biasStep] at h <;> repeat' split at h
  all_goals first
    | (cases h; exact .of_none rfl rfl (by rintro _ _ ⟨⟩))
    | (cases h; exact ctx.resume_whole _)

theorem biasStep_state {ctx : Ctx} {pc : BiasPc} (h : biasStep ctx pc t choice s = some e) :
    e.shared.impl.health.state = s.impl.health.state := by
  cases pc <;> simp only [biasStep] at h <;> grind [Impl.resetRdtSequence, Shared.leave]

theorem waitStep_whole {ctx : Ctx} {pc : WaitPc} (h : waitStep ctx pc t choice s = some e) {c : Impl} :
    e.next.Whole c := by
  cases pc <;> simp only [waitStep] at h <;> repeat' split at h
  all_goals first
    | contradiction
    | (cases h; exact .of_none rfl rfl (by rintro _ _ ⟨⟩))
    | (cases h; exact ctx.resume_whole _)

theorem waitStep_state {ctx : Ctx} {pc : WaitPc} (h : waitStep ctx pc t choice s = some e) :
    e.shared.impl.health.state = s.impl.health.state := by
  cases pc <;> simp only [waitStep] at h <;> grind [Shared.leave]

/-- **Only the section that puts the snapshot back tears it.** -/
theorem action_whole (h : p.action t choice s = some e) (hlatch : p.Latch s.impl)
    (hp : p.Whole s.impl) (htorn : p.owning = true → s.impl.Torn → p.Restoring) :
    e.next.Whole e.shared.impl ∧ (p.owning = true → e.shared.impl.Torn → e.next.Restoring) := by
  -- away from `start` and `publish` the latch stays, and no section makes the state Faulted
  have hkept : ∀ {q : Pc}, p.restored = none → p.latching = false →
      (e.shared.impl.health.state = s.impl.health.state ∨ e.shared.impl.health.state ≠ .Faulted) →
      p.owning = true → e.shared.impl.Torn → q.Restoring := by
    intro q hrestored hlatching hstate howning hc
    obtain ⟨saved, hsaved, -⟩ :=
      htorn howning (torn_of_same (action_faultLatch h hlatching) hstate hc)
    rw [hrestored] at hsaved
    cases hsaved
  cases p with
  | start ctx callback pc => exact startStep_whole h hlatch hp htorn
  | stop ctx caller pc =>
    exact ⟨stopStep_whole h, hkept rfl rfl (stopStep_state h)⟩
  | bias ctx pc => exact ⟨biasStep_whole h, hkept rfl rfl (.inl (biasStep_state h))⟩
  | waitForFirstSample ctx pc =>
    exact ⟨waitStep_whole h, hkept rfl rfl (.inl (waitStep_state h))⟩
  | query ctx q => cases q <;> cases h <;> exact ⟨ctx.resume_whole _, hkept rfl rfl (.inl rfl)⟩
  | destroy ctx pc =>
    cases pc <;> cases h <;> refine ⟨?_, hkept rfl rfl (.inl rfl)⟩
    · exact .of_none rfl rfl (by rintro _ _ ⟨⟩)
    · exact ctx.resume_whole _
    · exact ctx.resume_whole _
  | run pc =>
    rcases runStep_cases h with ⟨k, call, rfl, hcall⟩ | ⟨impl, sessions, next, hstep, rfl⟩
    · exact ⟨beginCall_whole hcall _, hkept rfl rfl (.inl (by rw [beginCall_impl hcall]))⟩
    · refine ⟨⟨fun saved => (by rintro ⟨⟩), fun saved => (by rintro ⟨⟩), ?_⟩, ?_⟩
      · rintro code message ⟨⟩
        exact RunPc.step_publishes hstep
      by_cases hpublish : ∃ code message, pc = .publish code message
      · obtain ⟨code, message, rfl⟩ := hpublish
        cases hstep
        exact fun _ hc => absurd hc (s.impl.not_torn_publishFault (hp.publishes code message rfl) message)
      · have hnot : ∀ code message, pc ≠ .publish code message := fun code message heq =>
          hpublish ⟨code, message, heq⟩
        refine hkept rfl ?_ (RunPc.step_state hstep hnot)
        cases pc <;> first
          | rfl
          | exact absurd rfl (hnot _ _)
  | outside =>
    simp only [Pc.action, outsideStep] at h
    split at h
    · exact ⟨beginCall_whole h _, hkept rfl rfl (.inl (by rw [beginCall_impl h]))⟩
    · cases h
  | deferred =>
    simp only [Pc.action, deferredStep] at h
    split_ifs at h
    cases h
    exact ⟨.of_none rfl rfl (by rintro _ _ ⟨⟩), hkept rfl rfl (.inl rfl)⟩

theorem passes_whole {q : Pc} (h : program.Passes p q s) {c : Impl} : q.Whole c := by
  have hrecord : ∀ l outcome code message, RunPc.afterRecord l outcome ≠ .publish code message := by
    intro l outcome code message
    cases outcome <;> simp [RunPc.afterRecord]
  cases goesOn_of_passes h with
  | deliveredLifecycle k =>
    exact .of_none rfl rfl fun code message heq => hrecord _ _ code message (Pc.run.inj heq)
  | _ => exact .of_none rfl rfl (by rintro _ _ ⟨⟩)

theorem not_restoring_of_passes {q : Pc} (h : program.Passes p q s) : ¬ p.Restoring := by
  intro hp
  have hact := Pc.instr_of_restoring hp
  cases h with
  | notify hinstr | wait hinstr _ | expire hinstr =>
    rw [show program.instr p = _ from hact] at hinstr
    cases hinstr

end

/-! ## Reachable states -/

namespace System.Reachable

variable {config : Config} {s : System}

/-- **Torn means that a thread is between the two sections**, in every reachable state. -/
theorem whole (h : s.Reachable config) :
    (s.shared.impl.Torn → ∃ t, (s.threads t).pc.Restoring) ∧
      ∀ t, (s.threads t).pc.Whole s.shared.impl := by
  refine Library.Reachable.invariant
    (I := fun s : System => (s.shared.impl.Torn → ∃ t, (s.threads t).pc.Restoring) ∧
      ∀ t, (s.threads t).pc.Whole s.shared.impl) ?_ ?_ h
  · refine ⟨fun htorn => (by cases htorn.2), fun t => ?_⟩
    simp only [System.init]
    split_ifs <;> exact .of_none rfl rfl (by rintro _ _ ⟨⟩)
  · rintro s i s' hreach ⟨htorn, hwhole⟩ hstep
    replace hreach : s.Reachable config := hreach
    by_cases hact : ∃ takes f, (s.threads i.tid).pc.instr = .act takes f
    · obtain ⟨takes, f, hinstr⟩ := hact
      obtain ⟨choice, e, -, hf, hshared, hpc, hothers⟩ := hreach.consistent.step_act hstep hinstr
      obtain ⟨-, rfl⟩ := Pc.instr_act hinstr
      have howner : ∀ {t}, (s.threads t).pc.restored ≠ none → (s.threads i.tid).pc.owning = true →
          t = i.tid := fun hrestored howning =>
        hreach.owner_unique (Pc.owning_of_restored hrestored) howning
      have hnext := action_whole hf (hreach.latch.2 i.tid) (hwhole i.tid) fun howning htorn' => by
        obtain ⟨t, saved, hrestored, hfault⟩ := htorn htorn'
        rw [← howner (by rw [hrestored]; exact Option.some_ne_none saved) howning]
        exact ⟨saved, hrestored, hfault⟩
      rw [hshared]
      cases howning : (s.threads i.tid).pc.owning with
      | true =>
        refine ⟨fun htorn' => ⟨i.tid, hpc ▸ hnext.2 howning htorn'⟩, fun u => ?_⟩
        by_cases hu : u = i.tid
        · rw [hu, hpc]
          exact hnext.1
        rcases hothers u hu with hsame | ⟨-, hspawned⟩
        · -- the other threads do not own the data
          rw [hsame]
          refine ⟨(hwhole u).kept, fun saved hrestored => absurd ?_ hu, (hwhole u).publishes⟩
          exact howner (by rw [hrestored]; exact Option.some_ne_none saved) howning
        · rw [spawned_run hf hspawned]
          exact .of_none rfl rfl (by rintro _ _ ⟨⟩)
      | false =>
        have hstate := action_state hf howning
        have hlatch : e.shared.impl.faultLatch = s.shared.impl.faultLatch := by
          refine action_faultLatch hf ?_
          by_contra hlatching
          rw [Pc.owning_of_latching (by simpa using hlatching)] at howning
          cases howning
        refine ⟨fun htorn' => ?_, fun u => ?_⟩
        · obtain ⟨t, saved, hrestored, hfault⟩ := htorn (torn_of_same hlatch (.inl hstate) htorn')
          have howns := Pc.owning_of_restored (p := (s.threads t).pc)
            (by rw [hrestored]; exact Option.some_ne_none saved)
          have hne : t ≠ i.tid := by
            rintro rfl
            rw [howns] at howning
            cases howning
          rcases hothers t hne with hsame | ⟨hfresh, -⟩
          · exact ⟨t, saved, by rw [hsame]; exact hrestored, hfault⟩
          · cases hat : (s.threads t).pc <;> rw [hat] at hfresh hrestored <;> first
              | cases hrestored
              | cases hfresh
        · by_cases hu : u = i.tid
          · rw [hu, hpc]
            exact hnext.1
          rcases hothers u hu with hsame | ⟨-, hspawned⟩
          · rw [hsame]
            exact (hwhole u).congr hstate
          · rw [spawned_run hf hspawned]
            exact .of_none rfl rfl (by rintro _ _ ⟨⟩)
    · rw [(shared_of_not_act hstep hact).1]
      have hpoint : ∀ {P : Pc → Prop}, (∀ p q, program.Passes p q s.shared → P p → P q) →
          (∀ ctx callback w, P (.start ctx callback (.join w)) → P (.start ctx callback .reaped)) →
          (∀ ctx caller w, P (.stop ctx caller (.join w)) → P (.stop ctx caller .relock)) →
          ∀ u, P (s.threads u).pc → P (s'.threads u).pc := fun hpass hstart hstop u hu =>
        point_of_not_act hstep hact hpass hstart hstop hu
      refine ⟨fun htorn' => ?_, fun u => ?_⟩
      · obtain ⟨t, hrestoring⟩ := htorn htorn'
        refine ⟨t, hpoint (P := Pc.Restoring) (fun p q hpass hp => ?_) ?_ ?_ t hrestoring⟩
        · exact absurd hp (not_restoring_of_passes hpass)
        · rintro _ _ _ ⟨_, h, -⟩
          cases h
        · rintro _ _ _ ⟨_, h, -⟩
          cases h
      · exact hpoint (P := (·.Whole s.shared.impl)) (fun p q hpass _ => passes_whole hpass)
          (fun _ _ _ _ => .of_none rfl rfl (by rintro _ _ ⟨⟩))
          (fun _ _ _ _ => .of_none rfl rfl (by rintro _ _ ⟨⟩)) u (hwhole u)

end System.Reachable

/-- **`health()` agrees with itself unless a `start` is putting a fault back.** -/
theorem healthConsistent_iff {config : Config} {s : System} (h : s.Reachable config) :
    s.shared.impl.HealthConsistent ↔ ∀ t, ¬ (s.threads t).pc.Restoring := by
  rw [Impl.healthConsistent_iff_not_torn, ← not_exists, not_iff_not]
  refine ⟨h.whole.1, ?_⟩
  rintro ⟨t, saved, hrestored, hfault⟩
  obtain ⟨hkept, hunfaulted⟩ := Pc.kept_of_restored hrestored
  refine ⟨(h.latch.2 t).unfaulted hunfaulted, ?_⟩
  rw [(h.whole.2 t).restored saved hrestored]
  exact ((h.latch.2 t).kept saved hkept hfault).1

/-- After a fault thread 1 calls `start()` once more, which cannot create its thread, and thread 3 calls
`health()` when the snapshot has been put back. -/
def failedRestart : List Input :=
  faultedRun ++ go 1 (.call (.start none)) :: steps 1 13 ++ [go 1 (.fail "no thread")] ++ steps 1 4 ++
    [go 3 (.call (.query (.health 5)))]

/-- After the fault nobody is putting one back; in the restart thread 1 is. -/
theorem healthConsistent_iff_restart :
    (∃ s : System, s.Reachable failStopConfig ∧ s.shared.impl.faultLatch = .SensorConfiguration ∧
      ∀ t, ¬ (s.threads t).pc.Restoring) ∧
    ∃ s : System, s.Reachable failStopConfig ∧ (s.threads 1).pc.Restoring ∧
      ¬ s.shared.impl.HealthConsistent := by
  constructor
  · have hrun : ((Library.execute program.next (System.init failStopConfig) faultedRun).map fun s =>
        decide (s.shared.impl.faultLatch = .SensorConfiguration)) = some true := by decide +kernel
    obtain ⟨s, hruns, hs⟩ := Library.exists_runs_of_execute hrun
    have hreach : System.Reachable failStopConfig s := ⟨_, hruns⟩
    have hcode : s.shared.impl.faultLatch = .SensorConfiguration := of_decide_eq_true hs
    have hconsistent : s.shared.impl.HealthConsistent := by
      rw [Impl.healthConsistent_iff_not_torn]
      exact fun htorn => absurd hcode (by simp [htorn.1])
    exact ⟨s, hreach, hcode, (healthConsistent_iff hreach).mp hconsistent⟩
  · have hrun : ((Library.execute program.next (System.init failStopConfig) failedRestart).map fun s =>
        decide ((s.threads 1).pc.restored.map (·.fault) = some .SensorConfiguration)) = some true := by
      decide +kernel
    obtain ⟨s, hruns, hs⟩ := Library.exists_runs_of_execute hrun
    obtain ⟨saved, hrestored, hfault⟩ := Option.map_eq_some_iff.mp (of_decide_eq_true hs)
    have hreach : System.Reachable failStopConfig s := ⟨_, hruns⟩
    have hrestoring : (s.threads 1).pc.Restoring := ⟨saved, hrestored, by simp [hfault]⟩
    exact ⟨s, hreach, hrestoring, fun hconsistent =>
      (healthConsistent_iff hreach).mp hconsistent 1 hrestoring⟩

/-- A `health()` in the rollback of a `start` says Faulted without a code. -/
theorem failedRestart_contradicts :
    (∃ s : System, s.Reachable failStopConfig ∧ (s.threads 3).pc = .query .outside (.health 5) ∧
      (s.shared.impl.healthAt 5).2.state = .Faulted ∧
      (s.shared.impl.healthAt 5).2.faultCode = .None) ∧
    ¬ ∀ s : System, s.Reachable failStopConfig → s.shared.impl.HealthConsistent := by
  have hrun : ((Library.execute program.next (System.init failStopConfig) failedRestart).map fun s =>
      decide ((s.threads 3).pc = .query .outside (.health 5) ∧
        (s.shared.impl.healthAt 5).2.state = .Faulted ∧
        (s.shared.impl.healthAt 5).2.faultCode = .None)) = some true := by decide +kernel
  obtain ⟨s, hruns, hs⟩ := Library.exists_runs_of_execute hrun
  obtain ⟨hquery, hstate, hcode⟩ := of_decide_eq_true hs
  have hreach : System.Reachable failStopConfig s := ⟨_, hruns⟩
  exact ⟨⟨s, hreach, hquery, hstate, hcode⟩, fun hall => (hall s hreach 5).mp hstate hcode⟩

end NetFT.Client
