/-
# NetFT.Client.CommandStream — the commands of a session are well bracketed.

The worker, `stop` and `bias` send on one socket.

* `Sends` lists what an action can do to the wire.
* `commandOutline` ties the automaton of the grammar to the client: while nobody owns `command_mutex_`,
  no group is half sent; a session is open exactly while `session_started_` is set, and then a worker is
  alive.
* **`commands_wellBracketed`** is the result for every reachable state.
-/
import NetFT.Client.Bracketed
import NetFT.Client.Conservation
import NetFT.Client.FailStop
import NetFT.Client.Rollback

namespace NetFT.Client

set_option autoImplicit false

open Library.Threads (Tid Effect Program Sys Outline)

/-! ## Who sends -/

/-- The worker has no session open. -/
def RunPc.closed : RunPc → Bool
  | .loop _ | .connecting _ | .stopping1 _ | .discover _ | .discoverFailed _ _ | .apply _ _ | .stopping2 _
  | .connect _ | .command _ | .send _ | .sendFailed _ _ | .settle _ _ | .enterBackoff _ _
  | .backoffLock _ | .backoffWait _ | .backoffDone _ | .finishExited => true
  | _ => false

/-- The transport is connected, and nothing is sent yet. -/
def RunPc.opening : RunPc → Bool
  | .command _ | .send _ => true
  | _ => false

/-- What an action does to the wire. -/
inductive Sends (p : Pc) (s : Shared) (e : Effect Shared Pc) : Prop where
  | nothing : (∀ ctx, p ≠ .bias ctx .restart) → e.shared.sessions = s.sessions →
      e.shared.impl.sessionStarted = s.impl.sessionStarted → Sends p s e
  | connect (b : Seconds) : p = .run (.connect b) → e.shared.sessions = s.sessions.connect →
      e.shared.impl.sessionStarted = s.impl.sessionStarted → Sends p s e
  | start (b : Seconds) (sent : Bool) : p = .run (.send b) →
      e.shared.sessions = s.sessions.attempt { command := .StartRealtime, sent } →
      e.shared.impl.sessionStarted = (sent || s.impl.sessionStarted) → Sends p s e
  | stop (sent : Bool) : .command ∈ p.takes →
      e.shared.sessions =
        (if s.impl.sessionStarted then s.sessions.attempt { command := .StopStreaming, sent }
        else s.sessions) →
      e.shared.impl.sessionStarted = false → Sends p s e
  | bias (ctx : Ctx) (found : BiasCheck) (sent : Bool) : p = .bias ctx (.send found) →
      e.shared.sessions =
        s.sessions.attempt { command := .SetSoftwareBias, sent, check := some found } →
      e.shared.impl.sessionStarted = s.impl.sessionStarted →
      (sent = true → e.next = .bias ctx .restart) → Sends p s e
  | restart (ctx : Ctx) (sent : Bool) : p = .bias ctx .restart →
      e.shared.sessions = s.sessions.attempt { command := .StartRealtime, sent } →
      e.shared.impl.sessionStarted = s.impl.sessionStarted → Sends p s e

section

variable {p : Pc} {t : Tid} {choice : Choice} {s : Shared} {e : Effect Shared Pc}

theorem applyConfiguration_sessionStarted (c : Impl) (configuration : SensorConfiguration) :
    (c.applyConfiguration configuration).sessionStarted = c.sessionStarted := by
  obtain ⟨_, _, h⟩ := c.applyConfiguration_frame configuration
  rw [h]

theorem publishFault_sessionStarted (c : Impl) (code : FaultCode) (message : String) :
    (c.publishFault code message).sessionStarted = c.sessionStarted := by
  unfold Impl.publishFault
  split_ifs <;> rfl

theorem prepareRecord_sessionStarted (c : Impl) (record : RawRecord) (receivedAt : TimePoint) :
    (c.prepareRecord record receivedAt).1.sessionStarted = c.sessionStarted := by
  rw [Impl.prepareRecord_fst]
  unfold Impl.observeRecord
  cases hconf : c.health.sensorConfiguration <;> simp only [hconf]

theorem runStep_sends {pc : RunPc} (h : runStep pc t choice s = some e) : Sends (.run pc) s e := by
  rcases runStep_cases h with ⟨k, call, -, hbegin⟩ | ⟨impl, sessions, next, hstep, rfl⟩
  · exact .nothing (fun _ heq => by cases heq) (beginCall_sessions hbegin) (by rw [beginCall_impl hbegin])
  · have happly := applyConfiguration_sessionStarted s.impl
    have hpublish := publishFault_sessionStarted s.impl
    have hprepare := prepareRecord_sessionStarted s.impl
    cases pc with
    | connect b =>
      simp only [RunPc.step, RunPc.stepOpen, RunPc.stepLoop, RunPc.stepClose] at hstep
      cases choice <;> cases hstep
      · exact .connect b rfl rfl rfl
      · exact .nothing (fun _ heq => by cases heq) rfl rfl
    | send b =>
      simp only [RunPc.step, RunPc.stepOpen, RunPc.stepLoop, RunPc.stepClose] at hstep
      cases hsend : sendResult s.impl choice <;> simp only [hsend] at hstep <;> cases hstep
      · exact .start b false rfl rfl rfl
      · exact .start b true rfl rfl rfl
    | close b outcome =>
      cases hstep
      exact .stop (sendResult s.impl choice).isOk (by simp [Pc.takes, RunPc.takes]) rfl rfl
    | finishClose =>
      cases hstep
      exact .stop (sendResult s.impl choice).isOk (by simp [Pc.takes, RunPc.takes]) rfl rfl
    | _ =>
      refine .nothing (fun _ heq => by cases heq) ?_ ?_ <;>
        simp only [RunPc.step, RunPc.stepOpen, RunPc.stepLoop, RunPc.stepClose] at hstep <;>
        grind [Impl.setState, Impl.countTimeout, Impl.countMalformed, Impl.clearMalformed,
          Impl.enterBackoff, Impl.setFault, Impl.recordCallbackError, Impl.resetSequences,
          Impl.deliverSample]

theorem biasStep_sends {ctx : Ctx} {pc : BiasPc} (h : biasStep ctx pc t choice s = some e) :
    Sends (.bias ctx pc) s e := by
  cases pc with
  | send found =>
    simp only [biasStep] at h
    cases hsend : sendResult s.impl choice <;> simp only [hsend] at h <;> cases h
    · exact .bias ctx found false rfl rfl rfl fun hsent => by cases hsent
    · exact .bias ctx found true rfl rfl rfl fun _ => rfl
  | restart =>
    simp only [biasStep] at h
    cases hsend : sendResult s.impl choice <;> simp only [hsend] at h <;> cases h
    · exact .restart ctx false rfl rfl rfl
    · exact .restart ctx true rfl rfl rfl
  | _ =>
    cases h
    exact .nothing (fun _ heq => by cases heq) rfl rfl

theorem stopStep_sends {ctx : Ctx} {caller : Caller} {pc : StopPc}
    (h : stopStep ctx caller pc t choice s = some e) : Sends (.stop ctx caller pc) s e := by
  cases pc with
  | command =>
    cases h
    exact .stop (sendResult s.impl choice).isOk (by simp [Pc.takes, StopPc.takes]) rfl rfl
  | _ =>
    refine .nothing (fun _ heq => by cases heq) ?_ ?_ <;> cases caller <;> simp only [stopStep] at h <;>
      grind [Impl.setState, Shared.leave]

/-- Every action sends nothing, or one of the commands that the grammar allows. -/
theorem action_sends (h : p.action t choice s = some e) : Sends p s e := by
  have hpublish := publishFault_sessionStarted s.impl
  cases p with
  | run pc => exact runStep_sends h
  | bias ctx pc => exact biasStep_sends h
  | stop ctx caller pc => exact stopStep_sends h
  | start ctx callback pc =>
    refine .nothing (fun _ heq => by cases heq) ?_ ?_ <;> cases pc <;>
      simp only [Pc.action, startStep] at h <;>
      grind [Impl.clearLastDelivery, Impl.beginGeneration, Impl.restoreData, Impl.resetFault, Shared.leave]
  | waitForFirstSample ctx pc =>
    refine .nothing (fun _ heq => by cases heq) ?_ ?_ <;> cases pc <;>
      simp only [Pc.action, waitStep] at h <;> grind [Shared.leave]
  | query ctx q =>
    cases q <;> cases h <;> exact .nothing (fun _ heq => by cases heq) rfl rfl
  | destroy ctx pc =>
    cases pc <;> cases h <;> exact .nothing (fun _ heq => by cases heq) rfl rfl
  | outside =>
    simp only [Pc.action, outsideStep] at h
    split at h
    · exact .nothing (fun _ heq => by cases heq) (beginCall_sessions h) (by rw [beginCall_impl h])
    · cases h
  | deferred =>
    simp only [Pc.action, deferredStep] at h
    split_ifs at h
    cases h
    exact .nothing (fun _ heq => by cases heq) rfl rfl

end

/-! ## The outline -/

/-- What a thread relies on at a control point. -/
def Pc.Commands (p : Pc) (wire : Wire) (started : Bool) : Prop :=
  match p with
  | .run pc => (pc.closed = true → started = false) ∧ (pc.opening = true → wire.current = [])
  | .bias _ (.send found) =>
    started = true ∧ found.allows = true ∧ wire.progress = some .streaming
  | .bias _ .restart => started = true ∧ wire.progress = some .biasing
  | .bias _ .record | .bias _ .check | .bias _ .reset => wire.progress ≠ some .biasing
  | _ => True

/-- The sessions, as everybody finds them. -/
structure Shared.Bracketing (s : Shared) : Prop where
  current : ∃ p, s.sessions.progress = some p ∧ p.atRest = !s.impl.sessionStarted
  earlier : ∀ session ∈ s.sessions.tail, ∃ p, progressOf session = some p ∧ p.atRest = true
  /-- Somebody will stop an open session. -/
  live : s.impl.sessionStarted = true → ∃ t, s.lifecycle.Live t

def commandOutline : Outline Shared Pc Mutex where
  global s := s.Bracketing
  lock m s := m = .command → s.sessions.progress ≠ some .biasing
  point _ p s := p.Commands s.sessions s.impl.sessionStarted

section

variable {p q : Pc} {t u : Tid} {choice : Choice} {s : Shared} {e : Effect Shared Pc}

theorem Ctx.resume_commands (ctx : Ctx) {wire : Wire} {started : Bool} :
    ctx.resume.Commands wire started := by
  cases ctx with
  | callback k => exact ⟨fun h => (by cases h), fun h => (by cases h)⟩
  | _ => exact trivial

theorem Shared.Bracketing.streaming (h : s.Bracketing) (hstarted : s.impl.sessionStarted = true)
    (hwhole : s.sessions.progress ≠ some .biasing) : s.sessions.progress = some .streaming := by
  obtain ⟨progress, hprogress, hrest⟩ := h.current
  rw [hstarted] at hrest
  cases progress with
  | streaming => exact hprogress
  | biasing => exact absurd hprogress hwhole
  | silent | ended => cases hrest

theorem Impl.biasAllowed_iff (c : Impl) : c.biasAllowed = true ↔
    (⟨c.stopping, c.sessionStarted, c.faulted, c.health.state⟩ : BiasCheck).allows = true := by
  simp [biasAllowed, BiasCheck.allows, and_comm, and_assoc, and_left_comm]

/-- The other calls do not reach a point where something is relied on. -/
theorem call_commands (h : p.action t choice s = some e) (hrun : ∀ pc, p ≠ .run pc)
    (hbias : ∀ ctx pc, p ≠ .bias ctx pc) {wire : Wire} {started : Bool} :
    e.next.Commands wire started := by
  have hresume : ∀ ctx : Ctx, ctx.resume.Commands wire started := fun ctx => ctx.resume_commands
  cases p with
  | run pc => exact absurd rfl (hrun pc)
  | bias ctx pc => exact absurd rfl (hbias ctx pc)
  | start ctx callback pc => cases pc <;> simp only [Pc.action, startStep] at h <;> grind [Pc.Commands]
  | stop ctx caller pc =>
    cases pc <;> cases caller <;> simp only [Pc.action, stopStep] at h <;> grind [Pc.Commands]
  | waitForFirstSample ctx pc =>
    cases pc <;> simp only [Pc.action, waitStep] at h <;> grind [Pc.Commands]
  | query ctx q => cases q <;> cases h <;> exact hresume ctx
  | destroy ctx pc => cases pc <;> cases h <;> first
    | exact trivial
    | exact hresume ctx
  | outside =>
    simp only [Pc.action, outsideStep] at h
    split at h
    · rename_i call
      cases call <;> simp only [beginCall] at h <;> grind [Pc.Commands]
    · cases h
  | deferred =>
    simp only [Pc.action, deferredStep] at h
    split_ifs at h
    cases h
    exact trivial

/-- A group goes on as its call does. -/
theorem biasStep_commands {ctx : Ctx} {pc : BiasPc} (h : biasStep ctx pc t choice s = some e)
    (hpoint : (Pc.bias ctx pc).Commands s.sessions s.impl.sessionStarted) (hglobal : s.Bracketing)
    (hfree : pc = .command → s.sessions.progress ≠ some .biasing) :
    e.next.Commands e.shared.sessions e.shared.impl.sessionStarted := by
  cases pc with
  | command =>
    cases h
    exact hfree rfl
  | record =>
    cases h
    exact hpoint
  | check =>
    cases hallowed : s.impl.biasAllowed <;> simp only [biasStep, hallowed] at h <;> cases h
    · exact trivial
    · have hfound := s.impl.biasAllowed_iff.mp hallowed
      have hstarted : s.impl.sessionStarted = true := by
        simp only [BiasCheck.allows, Bool.and_eq_true] at hfound
        exact hfound.1.1.1
      exact ⟨hstarted, hfound, hglobal.streaming hstarted hpoint⟩
  | send found =>
    obtain ⟨hstarted, hfound, hprogress⟩ := hpoint
    simp only [biasStep] at h
    cases hsend : sendResult s.impl choice <;> simp only [hsend] at h <;> cases h
    · exact trivial
    · refine ⟨hstarted, Wire.attempt_progress hprogress ?_⟩
      simp [Progress.next, hfound]
  | restart =>
    obtain ⟨-, hprogress⟩ := hpoint
    simp only [biasStep] at h
    cases hsend : sendResult s.impl choice <;> simp only [hsend] at h <;> cases h
    · exact trivial
    · have hafter : (s.sessions.attempt { command := .StartRealtime, sent := true }).progress =
          some .streaming := Wire.attempt_progress hprogress rfl
      change Wire.progress _ ≠ _
      rw [hafter]
      simp
  | reset =>
    cases h
    exact trivial
  | threw | returned =>
    cases h
    exact ctx.resume_commands

theorem RunPc.afterRecord_streaming (l : Loop) (outcome : Option SessionResult) :
    (afterRecord l outcome).closed = false ∧ (afterRecord l outcome).opening = false := by
  cases outcome <;> exact ⟨rfl, rfl⟩

/-- The transport is connected in one step. -/
theorem RunPc.step_opening {pc pc' : RunPc} {c c' : Impl} {wire wire' : Wire}
    (h : pc.step choice c wire = some (c', wire', pc')) (hopening : pc'.opening = true) :
    (∃ b, pc = .connect b ∧ wire' = wire.connect) ∨ pc.opening = true ∧ wire' = wire := by
  have hafter := afterRecord_streaming
  cases pc <;>
    simp only [step, stepOpen, stepLoop, stepClose, Option.none_or, Option.or_none, Option.map_none] at h <;>
    grind [opening, endSession]

/-- A worker without a session closed it, or has not opened one. -/
theorem RunPc.step_closed {pc pc' : RunPc} {c c' : Impl} {wire wire' : Wire}
    (h : pc.step choice c wire = some (c', wire', pc')) (hclosed : pc'.closed = true) :
    c'.sessionStarted = false ∨ pc.closed = true ∧ c'.sessionStarted = c.sessionStarted := by
  have hafter := afterRecord_streaming
  have happly := applyConfiguration_sessionStarted c
  cases pc with
  | close | finishClose =>
    cases h
    exact .inl rfl
  | _ =>
    simp only [step, stepOpen, stepLoop, stepClose, Option.none_or, Option.or_none, Option.map_none] at h
    grind [closed, endSession, Impl.setState, Impl.enterBackoff, Impl.connectTransport]

/-- So does the worker. -/
theorem runStep_commands {pc : RunPc} (h : runStep pc t choice s = some e)
    (hpoint : (Pc.run pc).Commands s.sessions s.impl.sessionStarted) :
    e.next.Commands e.shared.sessions e.shared.impl.sessionStarted := by
  obtain ⟨hclosed, hopening⟩ := hpoint
  rcases runStep_cases h with ⟨k, call, rfl, hbegin⟩ | ⟨impl, sessions, next, hstep, rfl⟩
  · cases call <;> simp only [beginCall] at hbegin <;> grind [Pc.Commands]
  · constructor
    · intro hnext
      rcases RunPc.step_closed hstep hnext with hfalse | ⟨hbefore, hsame⟩
      · exact hfalse
      · exact hsame.trans (hclosed hbefore)
    · intro hnext
      change sessions.current = []
      rcases RunPc.step_opening hstep hnext with ⟨b, -, hconnect⟩ | ⟨hbefore, hsame⟩
      · rw [hconnect, Wire.connect_current]
      · rw [hsame, hopening hbefore]

end

/-! ## The outline is justified -/

/-- The lifecycle, and what is known of a worker that is past its exit. -/
def lifeOutline : Outline Shared Pc Mutex :=
  lifecycleOutline.meet
    { global _ := True
      lock _ _ := True
      point t p s := p.hasExited = true → s.lifecycle.Handle t → s.lifecycle.exited = true }

theorem System.Reachable.life {config : Config} {s : System} (h : s.Reachable config) :
    lifeOutline.Holds s :=
  h.lifecycle.meet ⟨trivial, fun _ _ => trivial, fun _ => h.exited_of_handle⟩

theorem Lifecycle.Live.unique {l : Lifecycle} {t u : Tid} (ht : l.Live t) (hu : l.Live u) : t = u :=
  Option.some.inj (ht.2.1.symm.trans hu.2.1)

section

variable {p q : Pc} {t u : Tid} {takes : List Mutex} {f : Action} {choice : Choice} {s : Shared}
  {e : Effect Shared Pc}

theorem live_of_closed {pc : RunPc} (hclosed : pc.closed = true)
    (hplaced : (Pc.run pc).Placed t s.lifecycle) : s.lifecycle.Live t := by
  have hstanding := hplaced.standing
  cases pc <;> first
    | exact hstanding
    | cases hclosed

theorem Pc.standing_of_isCall (h : q.isCall = true) : q.standing = q.ctx.standing := by
  cases q with
  | run pc => cases pc <;> first | rfl | cases h
  | _ => rfl

/-- The worker stays the worker, until it says that it exits. -/
theorem action_standing (h : p.action t choice s = some e) (hworker : p.standing = .worker)
    (hexit : p ≠ .run .finishExited) : e.next.standing = .worker := by
  by_cases hrun : ∃ pc, p = .run pc
  · obtain ⟨pc, rfl⟩ := hrun
    rcases runStep_cases h with ⟨k, call, -, hbegin⟩ | ⟨impl, sessions, next, hstep, rfl⟩
    · obtain ⟨hctx, hcall⟩ := beginCall_ctx hbegin
      rw [Pc.standing_of_isCall hcall, hctx]
      rfl
    · have hstage := RunPc.step_stage hstep fun heq => hexit (by rw [heq])
      exact (congrArg RunPc.Stage.standing hstage).trans hworker
  · have hnot : ∀ pc, p ≠ .run pc := fun pc heq => hrun ⟨pc, heq⟩
    obtain ⟨hctx, hcall⟩ := action_ctx h hnot
    have hsame : p.standing = p.ctx.standing := by
      cases p with
      | run pc => exact absurd rfl (hnot pc)
      | _ => rfl
    rw [Pc.standing_of_isCall hcall, hctx, ← hsame, hworker]

theorem acts_simulated {O : Outline Shared Pc Mutex}
    (h : program.Acts (lifeOutline.meet O) t p takes f choice s e) : Simulated t p takes s e :=
  act_lifecycle h.instr h.effect h.point.1.1 h.global.1.1 fun child entry hspawned => by
    obtain ⟨hne, q, hfresh, ⟨hq, -⟩, -⟩ := h.starts child entry hspawned
    cases q <;> cases hfresh
    exact ⟨hq.standing, hne⟩

/-- A worker that is alive stays so, unless it says that it exits. -/
theorem acts_live {O : Outline Shared Pc Mutex}
    (h : program.Acts (lifeOutline.meet O) t p takes f choice s e) (hlive : s.lifecycle.Live u)
    (hexit : p ≠ .run .finishExited) : e.shared.lifecycle.Live u := by
  have hlawful : s.lifecycle.Lawful := h.global.1.1
  have hsim := acts_simulated h
  by_cases hut : u = t
  · subst hut
    obtain ⟨rfl, rfl⟩ := Pc.instr_act h.instr
    have hworker : p.standing = .worker := by
      have hstanding := h.point.1.1.standing
      have hexited := h.point.1.2
      cases hp : p.standing with
      | worker => rfl
      | stranger =>
        rw [hp] at hstanding
        exact absurd (hlawful.handle u hlive.1).1 hstanding
      | exiting | ended =>
        have hpast : p.hasExited = true := by
          cases p with
          | run pc => cases pc <;> first | rfl | cases hp
          | outside | deferred => cases hp
          | start ctx _ _ | stop ctx _ _ | bias ctx _ | waitForFirstSample ctx _ | query ctx _
          | destroy ctx _ => cases ctx <;> cases hp
        have hout := hexited hpast hlive.1
        rw [hlive.2.2] at hout
        cases hout
    have hnext := hsim.next.standing
    rw [action_standing h.effect hworker hexit] at hnext
    exact hnext
  · rcases hsim.move with hmove | ⟨hmove, -⟩
    · exact hlive.move hlawful hmove hut
    · exact hlive.lockedMove hlawful hmove

/-- Who takes `command_mutex_` for one action does not hold it already. -/
theorem command_not_held (h : .command ∈ p.takes) : .command ∉ p.holds := by
  cases p with
  | stop ctx caller pc => cases pc <;> simp [Pc.takes, StopPc.takes, Pc.holds] at h ⊢
  | run pc => cases pc <;> simp [Pc.takes, RunPc.takes, Pc.holds] at h ⊢
  | start ctx callback pc => cases pc <;> simp [Pc.takes, StartPc.takes] at h
  | bias ctx pc => cases pc <;> simp [Pc.takes, BiasPc.takes] at h
  | waitForFirstSample ctx pc => cases pc <;> simp [Pc.takes, WaitPc.takes] at h
  | query ctx q => cases q <;> simp [Pc.takes, Query.takes] at h
  | destroy ctx pc => cases pc <;> simp [Pc.takes, DestroyPc.takes] at h
  | outside | deferred => simp [Pc.takes] at h

/-- The progress of the session after an action. -/
theorem Sends.progress (hsends : Sends p s e) (hglobal : s.Bracketing)
    (hpoint : p.Commands s.sessions s.impl.sessionStarted)
    (hfree : .command ∈ p.takes → s.sessions.progress ≠ some .biasing) :
    ∃ q, e.shared.sessions.progress = some q ∧ q.atRest = !e.shared.impl.sessionStarted := by
  cases hsends with
  | nothing _ hsessions hstarted =>
    rw [hsessions, hstarted]
    exact hglobal.current
  | connect b hp hsessions hstarted =>
    subst hp
    rw [hsessions, hstarted, hpoint.1 rfl]
    exact ⟨.silent, rfl, rfl⟩
  | start b sent hp hsessions hstarted =>
    subst hp
    have hsilent : s.sessions.progress = some .silent := by rw [Wire.progress, hpoint.2 rfl, progressOf_nil]
    rw [hsessions, hstarted, hpoint.1 rfl]
    refine ⟨_, Wire.attempt_progress hsilent rfl, ?_⟩
    cases sent <;> rfl
  | stop sent htakes hsessions hstarted =>
    rw [hsessions, hstarted]
    split_ifs with hopen
    · exact ⟨.ended, Wire.attempt_progress (hglobal.streaming hopen (hfree htakes)) rfl, rfl⟩
    · rw [Bool.not_eq_true] at hopen
      obtain ⟨q, hq, hrest⟩ := hglobal.current
      exact ⟨q, hq, by rw [hrest, hopen]⟩
  | bias ctx found sent hp hsessions hstarted _ =>
    subst hp
    obtain ⟨hopen, hfound, hprogress⟩ := hpoint
    rw [hsessions, hstarted, hopen]
    refine ⟨if sent then .biasing else .streaming, Wire.attempt_progress hprogress ?_, ?_⟩
    · simp [Progress.next, hfound]
    · cases sent <;> rfl
  | restart ctx sent hp hsessions hstarted =>
    subst hp
    rw [hsessions, hstarted, hpoint.1]
    exact ⟨.streaming, Wire.attempt_progress hpoint.2 rfl, rfl⟩

theorem Sends.earlier (hsends : Sends p s e) (hglobal : s.Bracketing)
    (hpoint : p.Commands s.sessions s.impl.sessionStarted) :
    ∀ session ∈ e.shared.sessions.tail, ∃ q, progressOf session = some q ∧ q.atRest = true := by
  cases hsends with
  | connect b hp hsessions _ =>
    subst hp
    rw [hsessions]
    intro session hsession
    rcases Wire.mem_cases hsession with rfl | hearlier
    · obtain ⟨q, hq, hrest⟩ := hglobal.current
      exact ⟨q, hq, by rw [hrest, hpoint.1 rfl, Bool.not_false]⟩
    · exact hglobal.earlier session hearlier
  | nothing _ hsessions _ =>
    rw [hsessions]
    exact hglobal.earlier
  | start _ _ _ hsessions _ | bias _ _ _ _ hsessions _ _ | restart _ _ _ hsessions _ =>
    rw [hsessions, Wire.attempt_tail]
    exact hglobal.earlier
  | stop _ _ hsessions _ =>
    rw [hsessions]
    split_ifs
    · rw [Wire.attempt_tail]
      exact hglobal.earlier
    · exact hglobal.earlier

/-- Nobody leaves a group half sent when the mutex is released. -/
theorem Sends.whole (hsends : Sends p s e) (hglobal : s.Bracketing)
    (hpoint : p.Commands s.sessions s.impl.sessionStarted) (hafter : .command ∉ e.next.holds)
    (hfree : .command ∉ p.holds → s.sessions.progress ≠ some .biasing) :
    e.shared.sessions.progress ≠ some .biasing := by
  cases hsends with
  | nothing hrestart hsessions _ =>
    rw [hsessions]
    by_cases hheld : .command ∈ p.holds
    · cases p with
      | run pc =>
        cases pc <;> simp [Pc.holds] at hheld
        rw [Wire.progress, hpoint.2 rfl, progressOf_nil]
        simp
      | bias ctx pc =>
        cases pc <;> simp [Pc.holds] at hheld
        · exact hpoint
        · exact hpoint
        · rw [hpoint.2.2]
          simp
        · exact absurd rfl (hrestart ctx)
        · exact hpoint
      | start ctx callback pc => cases pc <;> simp [Pc.holds] at hheld
      | stop ctx caller pc => cases pc <;> simp [Pc.holds] at hheld
      | waitForFirstSample ctx pc => cases pc <;> simp [Pc.holds] at hheld
      | _ => simp [Pc.holds] at hheld
    · exact hfree hheld
  | connect _ _ hsessions _ =>
    rw [hsessions]
    simp
  | start b sent hp hsessions _ =>
    subst hp
    have hsilent : s.sessions.progress = some .silent := by rw [Wire.progress, hpoint.2 rfl, progressOf_nil]
    rw [hsessions, Wire.attempt_progress hsilent rfl]
    cases sent <;> simp
  | stop sent htakes hsessions _ =>
    have hwhole := hfree (command_not_held htakes)
    rw [hsessions]
    split_ifs with hopen
    · rw [Wire.attempt_progress (hglobal.streaming hopen hwhole) rfl]
      simp
    · exact hwhole
  | bias ctx found sent hp hsessions _ hnext =>
    subst hp
    obtain ⟨-, hfound, hprogress⟩ := hpoint
    cases sent with
    | true =>
      rw [hnext rfl] at hafter
      simp [Pc.holds] at hafter
    | false =>
      have hsent : (s.sessions.attempt
          { command := .SetSoftwareBias, sent := false, check := some found }).progress =
          some .streaming := Wire.attempt_progress hprogress (by simp [Progress.next, hfound])
      rw [hsessions, hsent]
      simp
  | restart ctx sent hp hsessions _ =>
    subst hp
    rw [hsessions, Wire.attempt_progress hpoint.2 rfl]
    simp

/-- What a thread relies on while it has a part of the wire for itself. -/
theorem Pc.Commands.frame (h : q.Commands s.sessions s.impl.sessionStarted) (hsends : Sends p s e)
    (hpoint : p.Commands s.sessions s.impl.sessionStarted)
    (hone : ∀ pc pc', p = .run pc → q = .run pc' → pc.closed = true → pc'.closed = true → False)
    (hlock : program.waits q = false → ∀ m ∈ q.holds, m ∉ p.takes ∧ m ∉ p.holds ∧ m ∉ e.next.holds) :
    q.Commands e.shared.sessions e.shared.impl.sessionStarted := by
  cases q with
  | bias ctx pc =>
    by_cases hheld : .command ∈ (Pc.bias ctx pc).holds
    · obtain ⟨htakes, hholds, -⟩ := hlock rfl _ hheld
      cases hsends with
      | nothing _ hsessions hstarted =>
        rw [hsessions, hstarted]
        exact h
      | connect b hp hsessions hstarted =>
        subst hp
        have hclosed : s.impl.sessionStarted = false := hpoint.1 rfl
        cases pc with
        | send found => exact absurd (hclosed.symm.trans h.1) (by simp)
        | restart => exact absurd (hclosed.symm.trans h.1) (by simp)
        | record | check | reset =>
          change Wire.progress _ ≠ _
          rw [hsessions]
          simp
        | _ => exact trivial
      | start _ _ hp | bias _ _ _ hp | restart _ _ hp => exact absurd (by rw [hp]; simp [Pc.holds]) hholds
      | stop _ htaken => exact absurd htaken htakes
    · cases pc <;> first
        | exact trivial
        | exact absurd (by simp [Pc.holds]) hheld
  | run pc' =>
    have hclosed_of_opening : pc'.opening = true → pc'.closed = true := by
      cases pc' <;> simp [RunPc.opening, RunPc.closed]
    suffices pc'.closed = true →
        e.shared.impl.sessionStarted = false ∧ e.shared.sessions = s.sessions from
      ⟨fun hclosed => (this hclosed).1, fun hopening => by
        rw [(this (hclosed_of_opening hopening)).2]
        exact h.2 hopening⟩
    intro hclosed
    have hstarted := h.1 hclosed
    cases hsends with
    | nothing _ hsessions hsame => exact ⟨hsame.trans hstarted, hsessions⟩
    | connect b hp => exact (hone _ _ hp rfl rfl hclosed).elim
    | start b sent hp => exact (hone _ _ hp rfl rfl hclosed).elim
    | stop sent _ hsessions hstopped =>
      rw [hstarted] at hsessions
      exact ⟨hstopped, hsessions⟩
    | bias ctx found sent hp =>
      subst hp
      exact absurd (hstarted.symm.trans hpoint.1) (by simp)
    | restart ctx sent hp =>
      subst hp
      exact absurd (hstarted.symm.trans hpoint.1) (by simp)
  | _ => exact trivial

theorem passes_commands (h : program.Passes p q s)
    (hpoint : p.Commands s.sessions s.impl.sessionStarted) :
    q.Commands s.sessions s.impl.sessionStarted ∧ .command ∉ p.holds := by
  have hafter : ∀ l outcome, (RunPc.afterRecord l outcome).closed = false ∧
      (RunPc.afterRecord l outcome).opening = false := by
    intro l outcome
    cases outcome <;> exact ⟨rfl, rfl⟩
  cases goesOn_of_passes h with
  | deliveredLifecycle k =>
    exact ⟨⟨fun hclosed => (by simp [hafter] at hclosed),
      fun hopening => (by simp [hafter] at hopening)⟩, by simp [Pc.holds]⟩
  | backedOff b =>
    exact ⟨⟨fun _ => hpoint.1 rfl, fun hopening => (by cases hopening)⟩, by simp [Pc.holds]⟩
  | deliveredFirst | publishFirst | publishLifecycle | finishFirst | finishLifecycle =>
    exact ⟨⟨fun hclosed => (by cases hclosed), fun hopening => (by cases hopening)⟩, by simp [Pc.holds]⟩
  | _ => exact ⟨trivial, by simp [Pc.holds]⟩

theorem wait_holds (h : program.waits p = true) : .command ∉ p.holds := by
  cases p with
  | run pc =>
    cases pc with
    | send b => cases h
    | _ => simp [Pc.holds]
  | bias ctx pc => cases pc <;> cases h
  | start ctx callback pc => cases pc <;> simp [Pc.holds]
  | stop ctx caller pc => cases pc <;> simp [Pc.holds]
  | waitForFirstSample ctx pc => cases pc <;> simp [Pc.holds]
  | _ => simp [Pc.holds]

end

theorem command_justified : program.Justifies lifeOutline commandOutline where
  act := by
    intro t p takes f choice s e h
    obtain ⟨rfl, rfl⟩ := Pc.instr_act h.instr
    have hglobal : s.Bracketing := h.global.2
    have hpoint : p.Commands s.sessions s.impl.sessionStarted := h.point.2
    have hplaced : p.Placed t s.lifecycle := h.point.1.1
    have hsends := action_sends h.effect
    have hfree : .command ∈ p.takes → s.sessions.progress ≠ some .biasing := fun htakes =>
      (h.lock .command (.inl htakes) (command_not_held htakes)).2 rfl
    refine ⟨⟨hsends.progress hglobal hpoint hfree, hsends.earlier hglobal hpoint, fun hopen => ?_⟩, ?_⟩
    · have hexit : p ≠ .run .finishExited := by
        rintro rfl
        have hclosed : s.impl.sessionStarted = false := hpoint.1 rfl
        have heffect : runStep .finishExited t choice s = some e := h.effect
        cases heffect
        exact absurd (hclosed.symm.trans hopen) (by simp)
      have hlive : ∃ u, s.lifecycle.Live u := by
        cases hsends with
        | nothing _ _ hstarted | connect _ _ _ hstarted | bias _ _ _ _ _ hstarted _
        | restart _ _ _ _ hstarted => exact hglobal.live (hstarted ▸ hopen)
        | stop _ _ _ hstarted => exact absurd (hstarted.symm.trans hopen) (by simp)
        | start b _ hp _ _ =>
          subst hp
          exact ⟨t, live_of_closed rfl hplaced⟩
      obtain ⟨u, hu⟩ := hlive
      exact ⟨u, acts_live h hu hexit⟩
    · cases p with
      | run pc => exact runStep_commands h.effect hpoint
      | bias ctx pc =>
        refine biasStep_commands h.effect hpoint hglobal ?_
        rintro rfl
        have heffect : biasStep ctx .command t choice s = some e := h.effect
        cases heffect
        exact (h.lock .command (.inr (by simp [program, Pc.holds])) (by simp [program, Pc.holds])).2 rfl
      | _ => exact call_commands h.effect (fun _ heq => by cases heq) fun _ _ heq => by cases heq
  spawn := by
    intro t p takes f choice s e child entry q h hspawned _ _ _
    obtain ⟨rfl, rfl⟩ := Pc.instr_act h.instr
    by_cases hcreate : ∃ ctx callback saved, p = .start ctx callback (.create saved)
    · obtain ⟨ctx, callback, saved, rfl⟩ := hcreate
      have hknows : Lifecycle.Knows.opened.In t s.lifecycle := h.point.1.1.knows
      have hclosed : s.impl.sessionStarted = false := by
        by_contra hopen
        obtain ⟨u, hu⟩ := h.global.2.live (Bool.eq_true_of_not_eq_false hopen)
        rcases hu.1 with hworker | ⟨j, hhandover⟩
        · exact absurd (hknows.1.1.symm.trans hworker) (by simp)
        · exact absurd (hknows.1.2.symm.trans hhandover) (by simp)
      rcases create_cases h.effect with ⟨w, rfl⟩ | rfl
      · cases hspawned
        exact ⟨fun _ => hclosed, fun hopening => (by cases hopening)⟩
      · cases hspawned
    · have hnone := action_spawned h.effect fun ctx callback saved heq =>
        hcreate ⟨ctx, callback, saved, heq⟩
      simp [hnone.1] at hspawned
  frame := by
    intro t p takes f choice s e u q h hne _ hq hlock
    obtain ⟨rfl, rfl⟩ := Pc.instr_act h.instr
    refine hq.2.frame (action_sends h.effect) h.point.2 (fun pc pc' hp hq' hclosed hclosed' => ?_) hlock
    subst hp hq'
    exact hne ((live_of_closed hclosed' hq.1.1).unique (live_of_closed hclosed h.point.1.1))
  release := by
    intro t p takes f choice s e m h hafter hfree hm
    obtain ⟨rfl, rfl⟩ := Pc.instr_act h.instr
    subst hm
    exact (action_sends h.effect).whole h.global.2 h.point.2 hafter fun hnot => (hfree hnot).2 rfl
  pass := by
    intro t p q s h _ hpoint
    obtain ⟨hcommands, hnot⟩ := passes_commands h hpoint.2
    refine ⟨hcommands, fun m hm _ heq => ?_⟩
    subst heq
    exact absurd hm hnot
  block := by
    intro t p s hwaits _ _ m hm heq
    subst heq
    exact absurd hm (wait_holds hwaits)
  join := by
    intro t p child f q r s h
    obtain ⟨hhandover, -⟩ := handover_of_join h.instr h.point.1.1
    obtain ⟨rfl, hjoin⟩ := Pc.instr_join h.instr
    have hglobal : s.Bracketing := h.global.2
    refine ⟨⟨hglobal.current, hglobal.earlier, fun hopen => ?_⟩, ?_, fun m _ hfree hm => ?_⟩
    · -- the worker that is joined is past its exit
      obtain ⟨u, hu⟩ := hglobal.live hopen
      obtain rfl : u = child := h.global.1.1.unique hu.1 (.inr ⟨t, hhandover⟩)
      obtain rfl := isEnded_iff.mp h.ended
      have hexited := h.child.1.2 rfl hu.1
      rw [hu.2.2] at hexited
      cases hexited
    · rcases hjoin with ⟨_, _, rfl, rfl⟩ | ⟨_, _, rfl, rfl⟩ <;> exact trivial
    · refine (hfree ?_).2 hm
      rcases hjoin with ⟨_, _, rfl, -⟩ | ⟨_, _, rfl, -⟩ <;> simp [program, Pc.holds]
  joinFrame := by
    intro t p child f q r s u v h _ _ hv _
    obtain ⟨rfl, -⟩ := Pc.instr_join h.instr
    exact hv.2

/-! ## Every reachable state -/

theorem System.Reachable.commands {config : Config} {s : System} (h : s.Reachable config) :
    commandOutline.Holds s := by
  refine command_justified.invariant System.init_consistent (fun _ hs => System.Reachable.life hs) ?_ h
  refine ⟨⟨⟨.silent, rfl, rfl⟩, fun session hsession => (by cases hsession), fun hopen => (by cases hopen)⟩,
    fun m _ _ => ?_, fun t => ?_⟩
  · simp [System.init, Wire.progress, Wire.current, progressOf_nil]
  · simp only [System.init]
    split_ifs <;> exact trivial

/-- While no worker is alive, no session is open. -/
theorem System.Reachable.closed {config : Config} {s : System} (h : s.Reachable config)
    (hgone : s.shared.impl.workerExited = true ∨ s.NoWorker) :
    s.shared.impl.sessionStarted = false := by
  by_contra hopen
  obtain ⟨u, hu⟩ := h.commands.global.live (Bool.eq_true_of_not_eq_false hopen)
  rcases hgone with hexited | hnone
  · exact absurd (hu.2.2.symm.trans hexited) (by simp)
  · have hdead := hnone u
    have hstanding := (h.placed u).standing
    unfold System.Alive at hdead
    have hstranger : (s.threads u).pc.standing ≠ .stranger := by
      intro heq
      rw [heq] at hstanding
      exact hstanding (h.lawful.handle u hu.1).1
    cases hpc : (s.threads u).pc with
    | run pc =>
      have hended : pc = .ended := by simpa [hpc, Pc.isWorker] using hdead
      have hexited := h.exited_of_handle (by rw [hpc, hended]; rfl) hu.1
      rw [hu.2.2] at hexited
      cases hexited
    | outside | deferred =>
      rw [hpc] at hstranger
      exact hstranger rfl
    | start ctx _ _ | stop ctx _ _ | bias ctx _ | waitForFirstSample ctx _ | query ctx _
    | destroy ctx _ =>
      rw [hpc] at hstranger hdead
      cases ctx <;> first
        | exact hstranger rfl
        | exact hdead rfl

/-- A SetSoftwareBias is sent by a call of `bias`, after its check. -/
theorem sends_of_bias {s s' : System} {i : Input} {a : Attempt} (hstep : Step s i s')
    (hsessions : s'.shared.sessions = s.shared.sessions.attempt a) (ha : a.command = .SetSoftwareBias) :
    ∃ ctx found, (s.threads i.tid).pc = .bias ctx (.send found) ∧ a.check = some found := by
  rcases Program.step_shared hstep with hsame | ⟨takes, f, choice, e, hinstr, hf, hshared⟩ |
    ⟨child, f, q, hinstr, hshared⟩
  · rw [hsame] at hsessions
    exact absurd hsessions.symm Wire.attempt_ne
  · obtain ⟨-, rfl⟩ := Pc.instr_act hinstr
    rw [hshared] at hsessions
    cases action_sends hf with
    | nothing _ hkept => exact absurd (hsessions.symm.trans hkept) Wire.attempt_ne
    | connect _ _ hkept => exact absurd (hkept.symm.trans hsessions) Wire.connect_ne_attempt
    | start _ _ _ hkept | restart _ _ _ hkept =>
      rw [← Wire.attempt_inj (hkept.symm.trans hsessions)] at ha
      cases ha
    | stop _ _ hkept =>
      split_ifs at hkept
      · rw [← Wire.attempt_inj (hkept.symm.trans hsessions)] at ha
        cases ha
      · exact absurd (hsessions.symm.trans hkept) Wire.attempt_ne
    | bias ctx found sent hp hkept =>
      exact ⟨ctx, found, hp, by rw [← Wire.attempt_inj (hkept.symm.trans hsessions)]⟩
  · obtain ⟨rfl, -⟩ := Pc.instr_join hinstr
    rw [hshared] at hsessions
    exact absurd hsessions.symm Wire.attempt_ne

/-- The command stream of a client. -/
structure WellBracketed (s : System) : Prop where
  grammar : ∀ session ∈ s.shared.sessions, ∃ rest, Bracketed (session ++ rest)
  stopLast : ∀ before stop after, before ++ stop :: after ∈ s.shared.sessions →
    stop.command = .StopStreaming → after = []
  checked : ∀ session ∈ s.shared.sessions, ∀ a ∈ session, a.command = .SetSoftwareBias →
    ∃ found, a.check = some found ∧ found.sessionStarted = true ∧ found.stopping = false ∧
      found.faulted = false ∧ found.state = .Streaming
  inBias : ∀ s' i a, Step s i s' → s'.shared.sessions = s.shared.sessions.attempt a →
    a.command = .SetSoftwareBias →
    ∃ ctx found, (s.threads i.tid).pc = .bias ctx (.send found) ∧ a.check = some found
  stoppedOnce : s.shared.impl.workerExited = true ∨ s.NoWorker →
    ∀ session ∈ s.shared.sessions, (∃ a ∈ session, a.command = .StartRealtime ∧ a.sent = true) →
      session.countP (·.command = .StopStreaming) = 1

/-- In every interleaving of the worker with `stop` and `bias`, whatever sends fail. -/
theorem commands_wellBracketed {config : Config} {s : System} (h : s.Reachable config) :
    WellBracketed s := by
  have hbracketing : s.shared.Bracketing := h.commands.global
  have hprogress : ∀ session ∈ s.shared.sessions, ∃ p, progressOf session = some p ∧
      (s.shared.impl.sessionStarted = false → p.atRest = true) := by
    intro session hsession
    rcases Wire.mem_cases hsession with rfl | hearlier
    · obtain ⟨p, hp, hrest⟩ := hbracketing.current
      exact ⟨p, hp, fun hclosed => by rw [hrest, hclosed, Bool.not_false]⟩
    · obtain ⟨p, hp, hrest⟩ := hbracketing.earlier session hearlier
      exact ⟨p, hp, fun _ => hrest⟩
  refine ⟨fun session hsession => ?_, fun before stop after hsession hstop => ?_,
    fun session hsession a ha hbias => ?_, fun s' i a hstep hsessions ha => ?_,
    fun hgone session hsession hstarted => ?_⟩
  · obtain ⟨p, hp, -⟩ := hprogress session hsession
    exact (shape_of_progressOf hp).exists_bracketed
  · obtain ⟨p, hp, -⟩ := hprogress _ hsession
    exact nothing_after_stop hp hstop
  · obtain ⟨p, hp, -⟩ := hprogress session hsession
    have hcheck := checked_of_progressOf hp a ha hbias
    cases hfound : a.check with
    | none => simp [hfound] at hcheck
    | some found =>
      rw [hfound] at hcheck
      refine ⟨found, rfl, ?_⟩
      simpa [BiasCheck.allows, and_assoc] using hcheck
  · exact sends_of_bias hstep hsessions ha
  · obtain ⟨p, hp, hrest⟩ := hprogress session hsession
    exact (shape_of_progressOf hp).stopped_once (hrest (h.closed hgone)) hstarted

/-- Thread 1 sets the bias while the worker streams, and stops the client. -/
def biasRun : List Input :=
  openRun ++ deliverRun ++ go 1 (.call .bias) :: steps 1 7 ++ go 1 (.call .stop) :: steps 1 4

theorem bias_then_stop : ∃ s, s.Reachable unitConfig ∧
    s.shared.sessions.map (·.map (·.command)) =
      [[.StartRealtime, .SetSoftwareBias, .StartRealtime, .StopStreaming], []] ∧ WellBracketed s := by
  have hrun : ((Library.execute program.next (System.init unitConfig) biasRun).map fun s =>
      decide (s.shared.sessions.map (·.map (·.command)) =
        [[.StartRealtime, .SetSoftwareBias, .StartRealtime, .StopStreaming], []])) = some true := by
    decide +kernel
  obtain ⟨s, hruns, hs⟩ := Library.exists_runs_of_execute hrun
  have hreach : System.Reachable unitConfig s := ⟨_, hruns⟩
  exact ⟨s, hreach, of_decide_eq_true hs, commands_wellBracketed hreach⟩

end NetFT.Client
