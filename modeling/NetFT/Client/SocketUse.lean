/-
# NetFT.Client.SocketUse — who uses the socket, and when it is open.

`UdpTransport` throws "UDP socket is not connected" when it is used without a socket, and its `shutdown`
makes a receive return nothing, which `receive_session` would count as a timeout.  Neither happens.

* `SocketMove` lists what an action can do to the socket, the two flags about it and `stopping_`.
* `socketOutline`: the socket is open while the worker is in a session, and closed before and after; an
  open socket has a worker that will close it; a shutdown of it comes with a stop request.
* **`socketDiscipline`** is the result for every reachable state.
-/
import NetFT.Client.CommandStream

namespace NetFT.Client

set_option autoImplicit false

open Library.Threads (Tid Effect Program Sys Outline)

/-! ## What an action does to the socket -/

/-- The part of the client that the socket and the stop request are. -/
structure SocketUse where
  transport : UdpTransport
  sessionStarted : Bool
  stopping : Bool

def Impl.socketUse (c : Impl) : SocketUse := ⟨c.transport, c.sessionStarted, c.stopping⟩

/-- Where `start` writes `stopping_`; there is no worker then. -/
def Pc.unstops : Pc → Bool
  | .start _ _ (.stopping _) | .start _ _ (.rollbackStopping _) => true
  | _ => false

/-- The socket before and after an action at the control point `p`. -/
inductive SocketMove (p : Pc) (u : SocketUse) : SocketUse → Prop where
  | keep : SocketMove p u u
  | connect (b : Seconds) : p = .run (.connect b) → SocketMove p u { u with transport := ⟨true, false⟩ }
  | begin (b : Seconds) : p = .run (.send b) → u.transport.connected = true →
      SocketMove p u { u with sessionStarted := true }
  | close : (∃ b outcome, p = .run (.close b outcome)) ∨ p = .run .finishClose →
      SocketMove p u { u with transport := ⟨false, true⟩, sessionStarted := false }
  | shutdown (ctx : Ctx) (caller : Caller) : p = .stop ctx caller .command →
      SocketMove p u
        { u with transport := { u.transport with shutdownRequested := true }, sessionStarted := false }
  | request (ctx : Ctx) (caller : Caller) : p = .stop ctx caller .lock →
      SocketMove p u { u with stopping := true }
  | unstop (stopping : Bool) : p.unstops = true → SocketMove p u { u with stopping }

section

variable {p : Pc} {t : Tid} {choice : Choice} {s : Shared} {e : Effect Shared Pc}

theorem SocketMove.of_eq {u u' : SocketUse} (h : u' = u) : SocketMove p u u' := h ▸ .keep

theorem applyConfiguration_socketUse (c : Impl) (configuration : SensorConfiguration) :
    (c.applyConfiguration configuration).socketUse = c.socketUse := by
  obtain ⟨_, _, h⟩ := c.applyConfiguration_frame configuration
  rw [h]
  rfl

theorem publishFault_socketUse (c : Impl) (code : FaultCode) (message : String) :
    (c.publishFault code message).socketUse = c.socketUse := by
  unfold Impl.publishFault
  split_ifs <;> rfl

theorem prepareRecord_socketUse (c : Impl) (record : RawRecord) (receivedAt : TimePoint) :
    (c.prepareRecord record receivedAt).1.socketUse = c.socketUse := by
  rw [Impl.prepareRecord_fst]
  unfold Impl.observeRecord
  cases hconf : c.health.sensorConfiguration <;> simp only [hconf] <;> rfl

theorem startStep_socket {ctx : Ctx} {callback : SampleCallback} {pc : StartPc}
    (h : startStep ctx callback pc t choice s = some e) :
    SocketMove (.start ctx callback pc) s.impl.socketUse e.shared.impl.socketUse := by
  cases pc with
  | stopping saved =>
    cases h
    exact .unstop false rfl
  | rollbackStopping saved =>
    cases h
    exact .unstop saved.stopping rfl
  | rollbackPublish saved =>
    cases h
    show SocketMove _ _ (if saved.fault ≠ .None then _ else _ : Impl).socketUse
    split_ifs
    · exact .of_eq (publishFault_socketUse _ _ _)
    · exact .keep
  | _ =>
    apply SocketMove.of_eq
    simp only [startStep] at h
    grind [Impl.socketUse, Shared.leave, Impl.clearLastDelivery, Impl.beginGeneration,
      Impl.resetFault, Impl.restoreData]

theorem stopStep_socket {ctx : Ctx} {caller : Caller} {pc : StopPc}
    (h : stopStep ctx caller pc t choice s = some e) :
    SocketMove (.stop ctx caller pc) s.impl.socketUse e.shared.impl.socketUse := by
  cases pc with
  | lock =>
    cases h
    exact .request ctx caller rfl
  | command =>
    cases h
    exact .shutdown ctx caller rfl
  | _ =>
    apply SocketMove.of_eq
    cases caller <;> simp only [stopStep] at h <;> grind [Impl.socketUse, Impl.setState, Shared.leave]

theorem runStep_socket {pc : RunPc} (h : runStep pc t choice s = some e) :
    SocketMove (.run pc) s.impl.socketUse e.shared.impl.socketUse := by
  rcases runStep_cases h with ⟨k, call, -, hbegin⟩ | ⟨impl, sessions, next, hstep, rfl⟩
  · exact .of_eq (by rw [beginCall_impl hbegin])
  · have happly := applyConfiguration_socketUse s.impl
    have hpublish := publishFault_socketUse s.impl
    have hprepare := prepareRecord_socketUse s.impl
    cases pc with
    | connect b =>
      simp only [RunPc.step, RunPc.stepOpen, RunPc.stepLoop, RunPc.stepClose] at hstep
      cases choice <;> cases hstep
      · exact .connect b rfl
      · exact .keep
    | send b =>
      simp only [RunPc.step, RunPc.stepOpen, RunPc.stepLoop, RunPc.stepClose] at hstep
      cases hsend : sendResult s.impl choice <;> simp only [hsend] at hstep <;> cases hstep
      · exact .keep
      · refine .begin b rfl ?_
        show s.impl.transport.connected = true
        by_contra hclosed
        cases choice <;> simp [sendResult, hclosed] at hsend
    | close b outcome =>
      cases hstep
      exact .close (.inl ⟨b, outcome, rfl⟩)
    | finishClose =>
      cases hstep
      exact .close (.inr rfl)
    | _ =>
      apply SocketMove.of_eq
      simp only [RunPc.step, RunPc.stepOpen, RunPc.stepLoop, RunPc.stepClose] at hstep
      grind [Impl.socketUse, Impl.setState, Impl.countTimeout, Impl.countMalformed, Impl.clearMalformed,
        Impl.enterBackoff, Impl.setFault, Impl.recordCallbackError, Impl.resetSequences,
        Impl.deliverSample]

/-- Every action moves the socket in one of these ways. -/
theorem action_socket (h : p.action t choice s = some e) :
    SocketMove p s.impl.socketUse e.shared.impl.socketUse := by
  cases p with
  | start ctx callback pc => exact startStep_socket h
  | stop ctx caller pc => exact stopStep_socket h
  | run pc => exact runStep_socket h
  | _ =>
    apply SocketMove.of_eq
    rcases action_impl h rfl with hsame | ⟨-, hsame⟩ | ⟨now, -, hsame⟩ <;> rw [hsame] <;> rfl

end

/-! ## The outline -/

/-- The worker has connected the socket and not begun to close it. -/
def RunPc.inSession : RunPc → Bool
  | .command _ | .send _ | .reset _ | .deadline _ | .check _ | .clock _ | .timeout _ | .receive _
  | .receiveFailed _ _ | .received _ _ | .malformed _ | .wellFormed _ _ | .observe _ _ _ | .invoke _
  | .inCallback _ | .callbackThrew _ _ | .deliver _ | .deliveredFirst _ | .deliveredLifecycle _ => true
  | _ => false

/-- The worker has not connected the socket, or has closed it. -/
def RunPc.outOfSession : RunPc → Bool
  | .loop _ | .connecting _ | .stopping1 _ | .discover _ | .discoverFailed _ _ | .apply _ _ | .stopping2 _
  | .connect _ | .settle _ _ | .enterBackoff _ _ | .backoffLock _ | .backoffWait _ | .backoffDone _
  | .finishExited => true
  | _ => false

namespace Pc

def inSession : Pc → Bool
  | .run pc => pc.inSession
  | p => p.ctx.isCallback

def outOfSession : Pc → Bool
  | .run pc => pc.outOfSession
  | _ => false

/-- A call of `stop` between its store to `stopping_` and its shutdown of the socket. -/
def requesting : Pc → Bool
  | .stop _ _ .notifyFirst | .stop _ _ .notifyLifecycle | .stop _ _ .command => true
  | _ => false

/-- What a thread relies on at a control point. -/
structure Socket (p : Pc) (u : SocketUse) : Prop where
  opened : p.inSession = true → u.transport.connected = true
  shutdown : p.inSession = true → u.transport.shutdownRequested = true → u.stopping = true
  closed : p.outOfSession = true → u.transport.connected = false
  requested : p.requesting = true → u.stopping = true

end Pc

theorem Pc.Socket.of_idle {p : Pc} {u : SocketUse} (hin : p.inSession = false)
    (hout : p.outOfSession = false) (hreq : p.requesting = false) : p.Socket u := by
  constructor <;> simp [hin, hout, hreq]

/-- The socket, as everybody finds it. -/
structure Shared.Plugged (s : Shared) : Prop where
  started : s.impl.sessionStarted = true → s.impl.transport.connected = true
  /-- Somebody will close an open socket. -/
  live : s.impl.transport.connected = true → ∃ t, s.lifecycle.Live t

def socketOutline : Outline Shared Pc Mutex where
  global s := s.Plugged
  lock _ _ := True
  point _ p s := p.Socket s.impl.socketUse

/-! ## Its own thread -/

section

variable {p q : Pc} {t u : Tid} {choice : Choice} {s : Shared} {e : Effect Shared Pc}

theorem Pc.inSession_of_isCall (h : q.isCall = true) : q.inSession = q.ctx.isCallback := by
  cases q with
  | run pc => cases pc <;> first | rfl | cases h
  | _ => rfl

theorem Pc.outOfSession_of_isCall (h : q.isCall = true) : q.outOfSession = false := by
  cases q with
  | run pc => cases pc <;> first | rfl | cases h
  | _ => rfl

theorem RunPc.afterRecord_session (l : Loop) (outcome : Option SessionResult) :
    (afterRecord l outcome).outOfSession = false := by
  cases outcome <;> rfl

/-- A session begins when the socket is connected. -/
theorem RunPc.step_inSession {pc pc' : RunPc} {c c' : Impl} {wire wire' : Wire}
    (h : pc.step choice c wire = some (c', wire', pc')) (hnext : pc'.inSession = true) :
    (∃ b, pc = .connect b ∧ c'.transport = ⟨true, false⟩) ∨ pc.inSession = true := by
  cases pc <;>
    simp only [step, stepOpen, stepLoop, stepClose, Option.none_or, Option.or_none, Option.map_none] at h <;>
    grind [inSession, endSession, Impl.connectTransport]

/-- It ends when the socket is closed. -/
theorem RunPc.step_outOfSession {pc pc' : RunPc} {c c' : Impl} {wire wire' : Wire}
    (h : pc.step choice c wire = some (c', wire', pc')) (hnext : pc'.outOfSession = true) :
    c'.transport.connected = false ∨ pc.outOfSession = true ∧ ∀ b, pc ≠ .connect b := by
  have hafter := afterRecord_session
  cases pc with
  | close | finishClose =>
    cases h
    exact .inl rfl
  | _ =>
    simp only [step, stepOpen, stepLoop, stepClose, Option.none_or, Option.or_none, Option.map_none] at h
    grind [outOfSession, endSession]

/-- In a session the worker leaves the socket as it is. -/
theorem SocketMove.keeps_session {pc : RunPc} {v v' : SocketUse} (h : SocketMove (.run pc) v v')
    (hpc : pc.inSession = true) : v'.transport = v.transport ∧ v'.stopping = v.stopping := by
  cases h with
  | keep | begin => exact ⟨rfl, rfl⟩
  | connect b hp => cases hp; cases hpc
  | close hp =>
    rcases hp with ⟨_, _, hp⟩ | hp <;> cases hp <;> cases hpc
  | shutdown _ _ hp | request _ _ hp => cases hp
  | unstop _ hp => cases hp

/-- A closed socket is opened by `connect` alone. -/
theorem SocketMove.keeps_closed {v v' : SocketUse} (h : SocketMove p v v')
    (hclosed : v.transport.connected = false) (hconnect : ∀ b, p ≠ .run (.connect b)) :
    v'.transport.connected = false := by
  cases h with
  | connect b hp => exact absurd hp (hconnect b)
  | close => rfl
  | keep | begin | shutdown | request | unstop => exact hclosed

/-- The worker finds what its next control point relies on. -/
theorem runStep_point {pc : RunPc} (h : runStep pc t choice s = some e)
    (hpoint : (Pc.run pc).Socket s.impl.socketUse) : e.next.Socket e.shared.impl.socketUse := by
  have hmove := runStep_socket h
  rcases runStep_cases h with ⟨k, call, rfl, hbegin⟩ | ⟨impl, sessions, next, hstep, rfl⟩
  · -- a call from the callback changes nothing yet
    obtain ⟨hctx, hcall⟩ := beginCall_ctx hbegin
    have hsame : e.shared.impl = s.impl := beginCall_impl hbegin
    have hrequest : e.next.requesting = false := by
      cases call <;> simp only [beginCall] at hbegin <;> grind [Pc.requesting]
    rw [hsame]
    refine ⟨fun _ => hpoint.opened rfl, fun _ => hpoint.shutdown rfl, fun hout => ?_, fun hreq => ?_⟩
    · rw [Pc.outOfSession_of_isCall hcall] at hout
      cases hout
    · rw [hrequest] at hreq
      cases hreq
  · refine ⟨fun hin => ?_, fun hin hshut => ?_, fun hout => ?_, fun hreq => by cases hreq⟩
    · rcases RunPc.step_inSession hstep hin with ⟨b, -, hopen⟩ | hbefore
      · show impl.transport.connected = true
        rw [hopen]
      · rw [(hmove.keeps_session hbefore).1]
        exact hpoint.opened hbefore
    · rcases RunPc.step_inSession hstep hin with ⟨b, -, hopen⟩ | hbefore
      · change impl.transport.shutdownRequested = true at hshut
        rw [hopen] at hshut
        cases hshut
      · obtain ⟨htransport, hstopping⟩ := hmove.keeps_session hbefore
        rw [hstopping]
        rw [htransport] at hshut
        exact hpoint.shutdown hbefore hshut
    · rcases RunPc.step_outOfSession hstep hout with hclosed | ⟨hbefore, hconnect⟩
      · exact hclosed
      · apply hmove.keeps_closed (hpoint.closed hbefore)
        intro b heq
        cases heq
        exact hconnect b rfl

/-- Where a call goes on to shut the socket down, it has stored the stop request. -/
theorem action_requesting (h : p.action t choice s = some e) (hnext : e.next.requesting = true) :
    e.shared.impl.stopping = true := by
  have hresume : ∀ ctx : Ctx, ctx.resume.requesting = false := fun ctx => by cases ctx <;> rfl
  have hcall : ∀ {ctx call}, beginCall ctx t call s = some e → e.next.requesting = false := by
    intro ctx call hbegin
    cases call <;> simp only [beginCall] at hbegin <;> grind [Pc.requesting]
  cases p with
  | start ctx callback pc =>
    cases pc <;> simp only [Pc.action, startStep] at h <;> grind [Pc.requesting]
  | stop ctx caller pc =>
    cases pc with
    | idleFaulted | relock =>
      simp only [Pc.action, stopStep] at h
      split_ifs at h <;> cases h <;> cases hnext
    | _ => cases caller <;> simp only [Pc.action, stopStep] at h <;> grind [Pc.requesting]
  | bias ctx pc => cases pc <;> simp only [Pc.action, biasStep] at h <;> grind [Pc.requesting]
  | waitForFirstSample ctx pc => cases pc <;> simp only [Pc.action, waitStep] at h <;> grind [Pc.requesting]
  | query ctx q => cases q <;> cases h <;> exact absurd hnext (by simp [hresume])
  | destroy ctx pc => cases pc <;> simp only [Pc.action, destroyStep] at h <;> grind [Pc.requesting]
  | run pc =>
    rcases runStep_cases h with ⟨k, call, -, hbegin⟩ | ⟨impl, sessions, next, -, rfl⟩
    · rw [hcall hbegin] at hnext
      cases hnext
    · cases hnext
  | outside =>
    simp only [Pc.action, outsideStep] at h
    split at h
    · rw [hcall h] at hnext
      cases hnext
    · cases h
  | deferred =>
    simp only [Pc.action, deferredStep] at h
    split_ifs at h
    cases h
    cases hnext

end

/-! ## The outline is justified -/

section

variable {p q : Pc} {t u : Tid} {takes : List Mutex} {f : Action} {choice : Choice} {s : Shared}
  {e : Effect Shared Pc}

/-- A thread whose control point knows that there is no worker is not beside one. -/
theorem not_live_of_vacant (hlive : s.lifecycle.Live u) (hvacant : s.lifecycle.Vacant) : False := by
  rcases hlive.1 with hworker | ⟨j, hhandover⟩
  · exact absurd (hvacant.1.symm.trans hworker) (by simp)
  · exact absurd (hvacant.2.symm.trans hhandover) (by simp)

theorem vacant_of_unstops (h : p.unstops = true) (hplaced : p.Placed t s.lifecycle) :
    s.lifecycle.Vacant := by
  have hknows := hplaced.knows
  cases p with
  | start ctx callback pc => cases pc <;> first | exact hknows | cases h
  | _ => cases h

/-- The worker is alive in a session, and in the calls of its callback. -/
theorem live_of_inSession (h : q.inSession = true) (hplaced : q.Placed u s.lifecycle) :
    s.lifecycle.Live u := by
  have hstanding := hplaced.standing
  cases q with
  | run pc => cases pc <;> first | exact hstanding | cases h
  | outside | deferred => cases h
  | start ctx _ _ | stop ctx _ _ | bias ctx _ | waitForFirstSample ctx _ | query ctx _ | destroy ctx _ =>
    cases ctx <;> first | exact hstanding | cases h

theorem live_of_outOfSession (h : q.outOfSession = true) (hplaced : q.Placed u s.lifecycle) :
    s.lifecycle.Live u := by
  have hstanding := hplaced.standing
  cases q with
  | run pc => cases pc <;> first | exact hstanding | cases h
  | _ => cases h

/-- A call finds what its next control point relies on. -/
theorem call_point (h : p.action t choice s = some e) (hrun : ∀ pc, p ≠ .run pc)
    (hplaced : p.Placed t s.lifecycle) (hpoint : p.Socket s.impl.socketUse) :
    e.next.Socket e.shared.impl.socketUse := by
  obtain ⟨hctx, hcall⟩ := action_ctx h hrun
  have hsame : e.next.inSession = true → p.inSession = true := by
    intro hin
    rw [Pc.inSession_of_isCall hcall, hctx] at hin
    cases p with
    | run pc => exact absurd rfl (hrun pc)
    | _ => exact hin
  have hmove := action_socket h
  have hrequest : e.next.requesting = true → e.shared.impl.socketUse.stopping = true :=
    action_requesting h
  generalize e.shared.impl.socketUse = v' at hmove hrequest ⊢
  refine ⟨fun hin => ?_, fun hin => ?_, fun hout => ?_, hrequest⟩
  · have hopen := hpoint.opened (hsame hin)
    cases hmove with
    | connect b hp => exact absurd hp (hrun _)
    | begin b hp => exact absurd hp (hrun _)
    | close hp =>
      rcases hp with ⟨_, _, hp⟩ | hp <;> exact absurd hp (hrun _)
    | keep | shutdown | request | unstop => exact hopen
  · have hshut := hpoint.shutdown (hsame hin)
    cases hmove with
    | connect b hp => exact absurd hp (hrun _)
    | begin b hp => exact absurd hp (hrun _)
    | close hp =>
      rcases hp with ⟨_, _, hp⟩ | hp <;> exact absurd hp (hrun _)
    | keep => exact hshut
    | shutdown ctx caller hp => exact fun _ => hpoint.requested (by rw [hp]; rfl)
    | request => exact fun _ => rfl
    | unstop _ hp =>
      exact (not_live_of_vacant (live_of_inSession (hsame hin) hplaced)
        (vacant_of_unstops hp hplaced)).elim
  · rw [Pc.outOfSession_of_isCall hcall] at hout
    cases hout

/-- What thread `u` relies on, another thread leaves so. -/
theorem Pc.Socket.frame (h : q.Socket s.impl.socketUse) (hne : u ≠ t)
    (hmove : SocketMove p s.impl.socketUse e.shared.impl.socketUse)
    (hp : p.Placed t s.lifecycle) (hq : q.Placed u s.lifecycle)
    (hpoint : p.Socket s.impl.socketUse)
    (hlock : program.waits q = false → ∀ m ∈ q.holds, m ∉ p.takes ∧ m ∉ p.holds ∧ m ∉ e.next.holds) :
    q.Socket e.shared.impl.socketUse := by
  have hother : ∀ pc, p = .run pc → pc.outOfSession = true ∨ (∃ b outcome, pc = .close b outcome) ∨
      pc = .finishClose → ¬ s.lifecycle.Live u := by
    rintro pc rfl hpc hlive
    have hself : s.lifecycle.Live t := by
      rcases hpc with hout | ⟨b, outcome, rfl⟩ | rfl
      · exact live_of_outOfSession (q := .run pc) hout hp
      · exact hp.standing
      · exact hp.standing
    exact hne (hlive.unique hself)
  -- `start` writes the stop request with the mutex that `stop` holds meanwhile
  have hholds : p.unstops = true → q.requesting = false := by
    intro hunstops
    by_contra hreq
    rw [Bool.not_eq_false] at hreq
    have hheld : .lifecycle ∈ q.holds ∧ program.waits q = false := by
      cases q with
      | stop ctx caller pc =>
        cases pc with
        | notifyFirst | notifyLifecycle | command => exact ⟨by simp [Pc.holds], rfl⟩
        | _ => cases hreq
      | _ => cases hreq
    have hfree := (hlock hheld.2 _ hheld.1).2.1
    cases p with
    | start ctx callback pc =>
      cases pc with
      | stopping | rollbackStopping => exact hfree (by simp [Pc.holds])
      | _ => cases hunstops
    | _ => cases hunstops
  generalize e.shared.impl.socketUse = v' at hmove ⊢
  cases hmove with
  | keep => exact h
  | connect b hconnect =>
    have hdead := hother _ hconnect (.inl rfl)
    exact ⟨fun hin => absurd (live_of_inSession hin hq) hdead,
      fun hin => absurd (live_of_inSession hin hq) hdead,
      fun hout => absurd (live_of_outOfSession hout hq) hdead, h.requested⟩
  | begin => exact ⟨h.opened, h.shutdown, h.closed, h.requested⟩
  | close hclose =>
    have hdead : ¬ s.lifecycle.Live u := by
      rcases hclose with ⟨b, outcome, hp'⟩ | hp'
      · exact hother _ hp' (.inr (.inl ⟨b, outcome, rfl⟩))
      · exact hother _ hp' (.inr (.inr rfl))
    exact ⟨fun hin => absurd (live_of_inSession hin hq) hdead,
      fun hin => absurd (live_of_inSession hin hq) hdead, fun _ => rfl, h.requested⟩
  | shutdown ctx caller hstop =>
    have hstopping := hpoint.requested (by rw [hstop]; rfl)
    exact ⟨h.opened, fun _ _ => hstopping, h.closed, h.requested⟩
  | request => exact ⟨h.opened, fun _ _ => rfl, h.closed, fun _ => rfl⟩
  | unstop stopping hunstops =>
    have hvacant := vacant_of_unstops hunstops hp
    refine ⟨h.opened, fun hin => (not_live_of_vacant (live_of_inSession hin hq) hvacant).elim, h.closed,
      fun hreq => ?_⟩
    rw [hholds hunstops] at hreq
    cases hreq

/-- A notify or a wait keeps what its thread relies on. -/
theorem passes_socket (h : program.Passes p q s) (hpoint : p.Socket s.impl.socketUse) :
    q.Socket s.impl.socketUse := by
  have hafter := RunPc.afterRecord_session
  obtain ⟨hopened, hshutdown, hclosed, hrequested⟩ := hpoint
  cases goesOn_of_passes h with
  | deliveredLifecycle k =>
    refine ⟨fun _ => hopened rfl, fun _ => hshutdown rfl, fun hout => ?_, fun hreq => by cases hreq⟩
    have hnot : (Pc.run (.afterRecord k.loop k.outcome)).outOfSession = false := hafter _ _
    rw [hnot] at hout
    cases hout
  | backedOff b =>
    exact ⟨fun hin => (by cases hin), fun hin => (by cases hin), fun _ => hclosed rfl,
      fun hreq => (by cases hreq)⟩
  | deliveredFirst k =>
    exact ⟨fun _ => hopened rfl, fun _ => hshutdown rfl, fun hout => (by cases hout),
      fun hreq => (by cases hreq)⟩
  | publishFirst | publishLifecycle | finishFirst | finishLifecycle => exact .of_idle rfl rfl rfl
  | stopFirst ctx caller | stopLifecycle ctx caller =>
    exact ⟨hopened, hshutdown, fun hout => (by cases hout), fun _ => hrequested rfl⟩
  | _ => exact ⟨hopened, hshutdown, fun hout => (by cases hout), fun hreq => (by cases hreq)⟩

end

theorem socket_justified : program.Justifies lifeOutline socketOutline where
  act := by
    intro t p takes f choice s e h
    obtain ⟨rfl, rfl⟩ := Pc.instr_act h.instr
    have hglobal : s.Plugged := h.global.2
    have hpoint : p.Socket s.impl.socketUse := h.point.2
    have hplaced : p.Placed t s.lifecycle := h.point.1.1
    have hmove := action_socket h.effect
    refine ⟨⟨?_, fun hopen => ?_⟩, ?_⟩
    · show e.shared.impl.socketUse.sessionStarted = true →
        e.shared.impl.socketUse.transport.connected = true
      have hbefore : s.impl.socketUse.sessionStarted = true →
        s.impl.socketUse.transport.connected = true := hglobal.started
      generalize e.shared.impl.socketUse = v' at hmove ⊢
      cases hmove with
      | keep | request | unstop => exact hbefore
      | connect => exact fun _ => rfl
      | begin _ _ hopen => exact fun _ => hopen
      | close | shutdown => exact fun hstarted => by cases hstarted
    · have hexit : p ≠ .run .finishExited := by
        rintro rfl
        have hclosed := hmove.keeps_closed (hpoint.closed rfl) fun b heq => by cases heq
        exact absurd (hclosed.symm.trans hopen) (by simp)
      have hlive : ∃ u, s.lifecycle.Live u := by
        by_cases hconnect : ∃ b, p = .run (.connect b)
        · obtain ⟨b, rfl⟩ := hconnect
          exact ⟨t, live_of_outOfSession (q := .run (.connect b)) rfl hplaced⟩
        · apply hglobal.live
          by_contra hclosed
          have hstill := hmove.keeps_closed (Bool.not_eq_true _ ▸ hclosed) fun b heq => hconnect ⟨b, heq⟩
          exact absurd (hstill.symm.trans hopen) (by simp)
      obtain ⟨u, hu⟩ := hlive
      exact ⟨u, acts_live h hu hexit⟩
    · by_cases hrun : ∃ pc, p = .run pc
      · obtain ⟨pc, rfl⟩ := hrun
        exact runStep_point h.effect hpoint
      · exact call_point h.effect (fun pc heq => hrun ⟨pc, heq⟩) hplaced hpoint
  spawn := by
    intro t p takes f choice s e child entry q h hspawned _ _ _
    obtain ⟨rfl, rfl⟩ := Pc.instr_act h.instr
    by_cases hcreate : ∃ ctx callback saved, p = .start ctx callback (.create saved)
    · obtain ⟨ctx, callback, saved, rfl⟩ := hcreate
      have hknows : Lifecycle.Knows.opened.In t s.lifecycle := h.point.1.1.knows
      have hclosed : s.impl.transport.connected = false := by
        by_contra hopen
        obtain ⟨u, hu⟩ := h.global.2.live (Bool.eq_true_of_not_eq_false hopen)
        exact not_live_of_vacant hu hknows.1
      rcases create_cases h.effect with ⟨w, rfl⟩ | rfl
      · cases hspawned
        exact ⟨fun hin => (by cases hin), fun hin => (by cases hin), fun _ => hclosed,
          fun hreq => (by cases hreq)⟩
      · cases hspawned
    · have hnone := action_spawned h.effect fun ctx callback saved heq =>
        hcreate ⟨ctx, callback, saved, heq⟩
      simp [hnone.1] at hspawned
  frame := by
    intro t p takes f choice s e u q h hne _ hq hlock
    obtain ⟨rfl, rfl⟩ := Pc.instr_act h.instr
    exact hq.2.frame hne (action_socket h.effect) h.point.1.1 hq.1.1 h.point.2 hlock
  release := fun _ _ _ => trivial
  pass := fun h _ hpoint => ⟨passes_socket h hpoint.2, fun _ _ _ => trivial⟩
  block := fun _ _ _ _ _ => trivial
  join := by
    intro t p child f q r s h
    obtain ⟨hhandover, -⟩ := handover_of_join h.instr h.point.1.1
    obtain ⟨rfl, hjoin⟩ := Pc.instr_join h.instr
    refine ⟨⟨h.global.2.started, fun hopen => ?_⟩, ?_, fun _ _ _ => trivial⟩
    · -- the worker that is joined is past its exit
      obtain ⟨u, hu⟩ := h.global.2.live hopen
      obtain rfl : u = child := h.global.1.1.unique hu.1 (.inr ⟨t, hhandover⟩)
      obtain rfl := isEnded_iff.mp h.ended
      have hexited := h.child.1.2 rfl hu.1
      rw [hu.2.2] at hexited
      cases hexited
    · have hpoint := h.point.2
      rcases hjoin with ⟨_, _, rfl, rfl⟩ | ⟨_, _, rfl, rfl⟩ <;>
        exact ⟨hpoint.opened, hpoint.shutdown, fun hout => (by cases hout), fun hreq => (by cases hreq)⟩
  joinFrame := by
    intro t p child f q r s u v h _ _ hv _
    obtain ⟨rfl, -⟩ := Pc.instr_join h.instr
    exact hv.2

/-! ## Every reachable state -/

namespace System.Reachable

variable {config : Config} {s : System} {u : Tid}

theorem socket (h : s.Reachable config) : socketOutline.Holds s := by
  refine socket_justified.invariant System.init_consistent (fun _ hs => System.Reachable.life hs) ?_ h
  refine ⟨⟨fun hstarted => (by cases hstarted), fun hopen => (by cases hopen)⟩, fun _ _ => trivial,
    fun t => ?_⟩
  simp only [System.init]
  split_ifs <;> exact .of_idle rfl rfl rfl

/-- The live worker of the lifecycle is where a worker is. -/
theorem worker_of_live (h : s.Reachable config) (hu : s.shared.lifecycle.Live u) :
    (s.threads u).pc.standing = .worker := by
  have hstanding := (h.placed u).standing
  have hexited : (s.threads u).pc.hasExited = true → s.shared.lifecycle.exited = true :=
    fun hpast => h.exited_of_handle hpast hu.1
  cases hpc : (s.threads u).pc.standing with
  | worker => rfl
  | stranger =>
    rw [hpc] at hstanding
    exact absurd (h.lawful.handle u hu.1).1 hstanding
  | exiting | ended =>
    have hpast : (s.threads u).pc.hasExited = true := by
      cases hp : (s.threads u).pc with
      | run pc => rw [hp] at hpc; cases pc <;> first | rfl | cases hpc
      | outside | deferred => rw [hp] at hpc; cases hpc
      | start ctx _ _ | stop ctx _ _ | bias ctx _ | waitForFirstSample ctx _ | query ctx _
      | destroy ctx _ => rw [hp] at hpc; cases ctx <;> cases hpc
    exact absurd (hu.2.2.symm.trans (hexited hpast)) (by simp)

end System.Reachable

/-- Where a command of a session is sent. -/
def Pc.sends : Pc → Bool
  | .run (.send _) | .bias _ (.send _) | .bias _ .restart => true
  | _ => false

/-- How a client uses its socket. -/
structure SocketDiscipline (s : System) : Prop where
  /-- A command is sent on an open socket: it fails only when the system fails it. -/
  sends : ∀ t choice, (s.threads t).pc.sends = true →
    sendResult s.shared.impl choice = match choice with
      | .fail what => .error what
      | _ => .ok ()
  /-- `stop` and the end of a session have an open socket for the StopStreaming that they owe. -/
  owed : s.shared.impl.sessionStarted = true → s.shared.impl.transport.connected = true
  /-- The worker receives from an open socket. -/
  receives : ∀ t, (s.threads t).pc.inSession = true → s.shared.impl.transport.connected = true
  /-- A shutdown comes with a stop request, so that a receive that it ends is not counted as a timeout. -/
  shutdown : ∀ t, (s.threads t).pc.inSession = true → s.shared.impl.transport.shutdownRequested = true →
    s.shared.impl.stopping = true
  uncounted : ∀ s' i l, Step s i s' → (s.threads i.tid).pc = .run (.timeout l) →
    s.shared.impl.transport.shutdownRequested = true → s'.shared.impl = s.shared.impl
  /-- Nobody leaves a socket open: whoever opened it is on its way to close it. -/
  owner : s.shared.impl.transport.connected = true →
    ∃ t, (s.threads t).pc.standing = .worker ∧ (s.threads t).pc.outOfSession = false
  closed : s.shared.impl.workerExited = true ∨ s.NoWorker →
    s.shared.impl.transport.connected = false

/-- In every interleaving of the worker with `start`, `stop` and `bias`, and however the system's calls
end. -/
theorem socketDiscipline {config : Config} {s : System} (h : s.Reachable config) :
    SocketDiscipline s := by
  have hpoint : ∀ t, (s.threads t).pc.Socket s.shared.impl.socketUse := h.socket.point
  have hplugged : s.shared.Plugged := h.socket.global
  have howner : s.shared.impl.transport.connected = true → ∃ t, s.shared.lifecycle.Live t ∧
      (s.threads t).pc.standing = .worker ∧ (s.threads t).pc.outOfSession = false := by
    intro hopen
    obtain ⟨u, hu⟩ := hplugged.live hopen
    refine ⟨u, hu, h.worker_of_live hu, ?_⟩
    by_contra hout
    have hclosed := (hpoint u).closed (Bool.eq_true_of_not_eq_false hout)
    exact absurd (hclosed.symm.trans hopen) (by simp)
  refine
    { sends := fun t choice hsends => ?_
      owed := hplugged.started
      receives := fun t => (hpoint t).opened
      shutdown := fun t => (hpoint t).shutdown
      uncounted := fun s' i l hstep hpc hshut => ?_
      owner := fun hopen => ?_
      closed := fun hgone => ?_ }
  · have hopen : s.shared.impl.transport.connected = true := by
      cases hpc : (s.threads t).pc with
      | run pc =>
        have hin := (hpoint t).opened
        rw [hpc] at hsends hin
        cases pc <;> first | exact hin rfl | cases hsends
      | bias ctx pc =>
        -- `bias` has `command_mutex_` and has seen the session
        have hcommands : (s.threads t).pc.Commands s.shared.sessions s.shared.impl.sessionStarted :=
          h.commands.point t
        rw [hpc] at hsends hcommands
        cases pc <;> first | exact hplugged.started hcommands.1 | cases hsends
      | _ => rw [hpc] at hsends; cases hsends
    cases choice <;> simp [sendResult, hopen]
  · have hstopping : s.shared.impl.stopping = true := (hpoint i.tid).shutdown (by rw [hpc]; rfl) hshut
    have hinstr : (s.threads i.tid).pc.instr = .act [.data] (Pc.run (.timeout l)).action := by
      rw [hpc]
      rfl
    obtain ⟨choice, e, -, hf, hshared, -⟩ := h.consistent.step_act hstep hinstr
    rw [hshared]
    change runStep (.timeout l) i.tid choice s.shared = some e at hf
    simp only [runStep, RunPc.step, RunPc.stepOpen, RunPc.stepLoop, hstopping] at hf
    cases hf
    rfl
  · obtain ⟨t, -, hworker, hout⟩ := howner hopen
    exact ⟨t, hworker, hout⟩
  · by_contra hopen
    obtain ⟨u, hu, hworker, -⟩ := howner (Bool.eq_true_of_not_eq_false hopen)
    rcases hgone with hexited | hnone
    · exact absurd (hu.2.2.symm.trans hexited) (by simp)
    · apply hnone u
      unfold System.Alive
      cases hpc : (s.threads u).pc with
      | run pc => rw [hpc] at hworker; cases pc <;> first | rfl | cases hworker
      | outside | deferred => rw [hpc] at hworker; cases hworker
      | start ctx _ _ | stop ctx _ _ | bias ctx _ | waitForFirstSample ctx _ | query ctx _
      | destroy ctx _ => rw [hpc] at hworker; cases ctx <;> first | rfl | cases hworker

/-- `stop()` has shut the socket down, and the worker has not closed it yet. -/
theorem socketDiscipline_shutdown : ∃ s : System, System.Reachable unitConfig s ∧
    s.shared.impl.transport = ⟨true, true⟩ ∧ (s.threads 2).pc.inSession = true ∧ SocketDiscipline s := by
  have hrun : ((Library.execute program.next (System.init unitConfig) biasRun).map fun s =>
      decide (s.shared.impl.transport = ⟨true, true⟩ ∧ (s.threads 2).pc.inSession = true)) =
        some true := by
    decide +kernel
  obtain ⟨s, hruns, hs⟩ := Library.exists_runs_of_execute hrun
  obtain ⟨htransport, hsession⟩ := of_decide_eq_true hs
  have hreach : System.Reachable unitConfig s := ⟨_, hruns⟩
  exact ⟨s, hreach, htransport, hsession, socketDiscipline hreach⟩

end NetFT.Client
