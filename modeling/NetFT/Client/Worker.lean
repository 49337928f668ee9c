/-
# NetFT.Client.Worker — the worker's lifecycle in every interleaving.

`Pc.Placed` says, for every control point, what its thread may rely on: whether it is the worker, why it
is in the client, and what it knows of the handle.  `act_lifecycle` is the simulation: every action of
the program is a move of `Lifecycle`, and its thread finds what the next control point relies on.
`lifecycleOutline` then holds in every reachable state (`lifecycle_justified`).
-/
import NetFT.Client.Lifecycle

namespace NetFT.Client

set_option autoImplicit false

open Library.Threads (Tid Effect Instr Program Sys Thread Outline)

/-! ## What a control point relies on -/

/-- Who a thread is. -/
inductive Standing where
  | stranger | worker | exiting | ended

/-- What a thread's standing says of the handles. -/
def Standing.In (standing : Standing) (t : Tid) (l : Lifecycle) : Prop :=
  match standing with
  | .stranger => t ∉ l.created
  | .worker => l.Live t
  | .exiting => l.Handle t
  | .ended => t ∈ l.created

/-- What a thread does in the client. -/
inductive Role where
  | none | inCall | destroying

/-- What a thread's role says of the calls. -/
def Role.In (role : Role) (t : Tid) (l : Lifecycle) : Prop :=
  match role with
  | .none => True
  | .inCall => l.Using t
  | .destroying => l.Destroying t

/-- A callback runs on the worker. -/
def Ctx.standing : Ctx → Standing
  | .callback _ => .worker
  | .outside | .deferred => .stranger

def Ctx.isCallback : Ctx → Bool
  | .callback _ => true
  | .outside | .deferred => false

/-- The standing of the worker in each of its stages. -/
def RunPc.Stage.standing : RunPc.Stage → Standing
  | .live => .worker
  | .exiting => .exiting
  | .ended => .ended

/-- Whoever runs `stop` for a destructor is about to free the client. -/
def Caller.role : Caller → Role
  | .user => .inCall
  | .destroySelf | .destroyClient | .destroyImpl => .destroying

/-- Who may come to the join of the worker: the last two destructors not from its callback. -/
def Caller.Joinable (caller : Caller) (ctx : Ctx) : Prop :=
  match caller with
  | .user | .destroySelf => True
  | .destroyClient | .destroyImpl => ctx.isCallback = false

open Lifecycle (Knows Move LockedMove Lawful)

/-- What `start` knows of the handle at each point. -/
def StartPc.knows : StartPc → Knows
  | .inspect => .notJoining
  | .join w => .holding w
  | .reaped => .hasJoined
  | .record _ | .data _ | .stopping _ | .exited _ | .rollbackStopping _ | .rollbackExited _
  | .rollbackRecord _ | .rollbackData _ | .rollbackReset _ | .rollbackPublish _ => .vacant
  | .create _ => .opened
  | _ => .nothing

/-- What `stop` knows of the handle at each point. -/
def StopPc.knows (caller : Caller) : StopPc → Knows
  | .idleFaulted | .idleState => .vacant
  | .join w => .holding w
  | .relock | .joinedState | .joined => .hasJoined
  | .joinedNotifyLifecycle | .joinedNotifyFirst | .returned =>
    if caller = .destroyImpl then .gone else .nothing
  | _ => .nothing

namespace Pc

/-- The standing of a thread. -/
def standing : Pc → Standing
  | .outside | .deferred => .stranger
  | .start ctx _ _ | .stop ctx _ _ | .bias ctx _ | .waitForFirstSample ctx _ | .query ctx _
  | .destroy ctx _ => ctx.standing
  | .run pc => pc.stage.standing

/-- Its role. -/
def role : Pc → Role
  | .outside | .deferred | .run _ => .none
  | .start _ _ _ | .bias _ _ | .waitForFirstSample _ _ | .query _ _ => .inCall
  | .stop _ caller _ => caller.role
  | .destroy _ _ => .destroying

/-- What it knows of the handle. -/
def knows : Pc → Knows
  | .start _ _ pc => pc.knows
  | .stop _ caller pc => pc.knows caller
  | .destroy _ .free => .gone
  | _ => .nothing

/-- The destructors that join the worker do not run in its callback. -/
def Joinable : Pc → Prop
  | .stop ctx caller _ => caller.Joinable ctx
  | .destroy ctx .free => ctx.isCallback = false
  | _ => True

/-- What thread `t` relies on at a control point. -/
structure Placed (t : Tid) (p : Pc) (l : Lifecycle) : Prop where
  standing : p.standing.In t l
  role : p.role.In t l
  knows : p.knows.In t l
  joinable : p.Joinable

end Pc

/-- Who knows what only `lifecycle_mutex_` protects, holds it. -/
theorem Pc.holds_of_needsLock {p : Pc} (h : p.knows.NeedsLock) :
    .lifecycle ∈ p.holds ∧ program.waits p = false := by
  cases p with
  | start ctx callback pc =>
    cases pc <;> first | exact absurd h id | exact ⟨by simp [holds], rfl⟩
  | stop ctx caller pc =>
    cases pc <;> cases caller <;> first | exact absurd h id | exact ⟨by simp [holds], rfl⟩
  | destroy ctx pc => cases pc <;> exact absurd h id
  | _ => exact absurd h id

/-! ## What other threads do -/

variable {t u : Tid} {p q : Pc} {l l' : Lifecycle}

/-- A move of another thread leaves the standing. -/
theorem Standing.In.move {standing : Standing} (h : standing.In u l) (hlawful : l.Lawful)
    (hmove : Move t l l') (hne : u ≠ t) : standing.In u l' := by
  have hcreated : l'.created = l.created := by cases hmove <;> rfl
  cases standing with
  | stranger => exact fun hmem => h (hcreated ▸ hmem)
  | worker => exact Lifecycle.Live.move h hlawful hmove hne
  | exiting => exact Lifecycle.Handle.move h hmove
  | ended =>
    change u ∈ l'.created
    exact hcreated ▸ h

/-- So does one under the lifecycle mutex, unless it creates this thread. -/
theorem Standing.In.lockedMove {standing : Standing} (h : standing.In u l) (hlawful : l.Lawful)
    (hmove : LockedMove t l l') (hfresh : u ∉ l.created → u ∉ l'.created) : standing.In u l' := by
  cases standing with
  | stranger => exact hfresh h
  | worker => exact Lifecycle.Live.lockedMove h hlawful hmove
  | exiting => exact Lifecycle.Handle.lockedMove h hlawful hmove
  | ended => cases hmove <;> first | exact h | exact List.mem_cons_of_mem _ h

/-- A move of another thread leaves the role. -/
theorem Role.In.move {role : Role} (h : role.In u l) (hlawful : l.Lawful) (hmove : Move t l l')
    (hne : u ≠ t) : role.In u l' := by
  cases role with
  | none => trivial
  | inCall => exact Lifecycle.Using.move h hmove hlawful hne
  | destroying => exact Lifecycle.Destroying.move h hmove hne

theorem Role.In.lockedMove {role : Role} (h : role.In u l) (hmove : LockedMove t l l') :
    role.In u l' := by
  cases role with
  | none => trivial
  | inCall => exact Lifecycle.Using.lockedMove h hmove
  | destroying => exact Lifecycle.Destroying.lockedMove h hmove

/-- Only a destructor frees the client. -/
theorem Pc.role_of_gone (h : q.knows = .gone) : q.role = .destroying := by
  cases q with
  | start ctx callback pc => cases pc <;> cases h
  | stop ctx caller pc => cases caller <;> cases pc <;> first | rfl | cases h
  | destroy ctx pc => rfl
  | _ => cases h

/-- A join ends no other thread. -/
theorem Standing.In.join {standing : Standing} {w : Tid} (h : standing.In u l) (hlawful : l.Lawful)
    (hhandover : l.handover = some (t, some w)) (hne : u ≠ w) : standing.In u (l.join t w) := by
  cases standing with
  | worker => exact Lifecycle.Live.join h hlawful hhandover hne
  | exiting => exact Lifecycle.Handle.join h hlawful hhandover hne
  | _ => exact h

theorem Role.In.join {role : Role} {w : Tid} (h : role.In u l) : role.In u (l.join t w) := by
  cases role <;> exact h

namespace Pc.Placed

/-- What another thread does leaves a thread in its place. -/
theorem move (h : q.Placed u l) (hlawful : l.Lawful) (hmove : Move t l l') (hne : u ≠ t) :
    q.Placed u l' where
  standing := h.standing.move hlawful hmove hne
  role := h.role.move hlawful hmove hne
  knows := h.knows.move hmove fun hgone => by
    have hrole := h.role
    rw [role_of_gone hgone] at hrole
    exact hrole.2.1
  joinable := h.joinable

/-- Under the lifecycle mutex too, as long as the thread knows nothing that needs the mutex. -/
theorem lockedMove (h : q.Placed u l) (hlawful : l.Lawful) (hmove : LockedMove t l l') (hne : u ≠ t)
    (hfresh : u ∉ l.created → u ∉ l'.created) (hlock : ¬ q.knows.NeedsLock) : q.Placed u l' where
  standing := h.standing.lockedMove hlawful hmove hfresh
  role := h.role.lockedMove hmove
  knows := h.knows.lockedMove hlawful hmove hne hlock
  joinable := h.joinable

/-! ## What its own thread does -/

/-- A call that returns leaves the thread where it was called from. -/
theorem resume {ctx : Ctx} (h : ctx.standing.In t l) : ctx.resume.Placed t l := by
  cases ctx <;> exact ⟨h, ⟨⟩, ⟨⟩, ⟨⟩⟩

/-- A step within `start` keeps the place if what it knows then is so. -/
theorem start {ctx : Ctx} {callback : SampleCallback} {pc pc' : StartPc}
    (h : (Pc.start ctx callback pc).Placed t l) (hknows : pc'.knows.In t l) :
    (Pc.start ctx callback pc').Placed t l :=
  ⟨h.standing, h.role, hknows, ⟨⟩⟩

/-- The same for `stop`. -/
theorem stop {ctx : Ctx} {caller : Caller} {pc pc' : StopPc}
    (h : (Pc.stop ctx caller pc).Placed t l) (hknows : (pc'.knows caller).In t l) :
    (Pc.stop ctx caller pc').Placed t l :=
  ⟨h.standing, h.role, hknows, h.joinable⟩

/-- The thread itself makes a locked move. -/
theorem locked (h : p.Placed t l) (hlawful : l.Lawful) (hmove : LockedMove t l l')
    (hfresh : t ∉ l.created → t ∉ l'.created) (hstanding : q.standing = p.standing)
    (hrole : q.role = p.role) (hknows : q.knows.In t l') (hjoinable : q.Joinable) : q.Placed t l' where
  standing := hstanding ▸ h.standing.lockedMove hlawful hmove hfresh
  role := hrole ▸ h.role.lockedMove hmove
  knows := hknows
  joinable := hjoinable

end Pc.Placed

/-- The lifecycle follows an action of thread `t` at `p`. -/
structure Simulated (t : Tid) (p : Pc) (takes : List Mutex) (s : Shared) (e : Effect Shared Pc) :
    Prop where
  next : e.next.Placed t e.shared.lifecycle
  move : Move t s.lifecycle e.shared.lifecycle ∨
    LockedMove t s.lifecycle e.shared.lifecycle ∧
      (.lifecycle ∈ takes ∨ .lifecycle ∈ p.holds ∨ .lifecycle ∈ e.next.holds)

/-- An action that leaves the lifecycle alone is simulated by none of its moves. -/
theorem Simulated.stay {takes : List Mutex} {s : Shared} {e : Effect Shared Pc}
    (hsame : e.shared.lifecycle = s.lifecycle) (hnext : e.next.Placed t s.lifecycle) :
    Simulated t p takes s e :=
  ⟨hsame ▸ hnext, .inl (hsame ▸ .stay)⟩

theorem Standing.In.leave {standing : Standing} {s : Shared} (h : standing.In t s.lifecycle) :
    standing.In t (s.leave t).lifecycle := by
  cases standing <;> exact h

/-- The end of a call is its move. -/
theorem Simulated.leave {takes : List Mutex} {s : Shared} {ctx : Ctx}
    (h : ctx.standing.In t s.lifecycle) : Simulated t p takes s ⟨s.leave t, ctx.resume, none⟩ :=
  ⟨.resume (Standing.In.leave (s := s) h), .inl .leave⟩

/-- The handle that a thread takes is not its own, unless it is the worker and has not said that it
exits. -/
theorem ne_of_handle {ctx : Ctx} {w : Tid} (h : ctx.standing.In t l) (hlawful : l.Lawful)
    (hhandle : l.Handle w) (hself : ¬ (l.exited = false ∧ l.active = some t)) : w ≠ t := by
  rintro rfl
  cases ctx with
  | callback k => exact hself ⟨h.2.2, h.2.1⟩
  | outside => exact h (hlawful.handle w hhandle).1
  | deferred => exact h (hlawful.handle w hhandle).1

/-- `called_from_worker_thread` compares with the id that `run` has published. -/
theorem calledFromWorkerThread_iff {c : Impl} :
    c.calledFromWorkerThread t = true ↔ c.workerExited = false ∧ c.activeWorkerId = some t := by
  simp [Impl.calledFromWorkerThread]

theorem Impl.publishFault_lifecycle (c : Impl) (code : FaultCode) (message : String) (s : Shared) :
    { s with impl := c.publishFault code message }.lifecycle = { s with impl := c }.lifecycle := by
  unfold publishFault
  split_ifs <;> rfl

/-- **A step of `start`** makes one of the moves of the lifecycle, or none. -/
theorem startStep_lifecycle {ctx : Ctx} {callback : SampleCallback} {pc : StartPc} {choice : Choice}
    {s : Shared} {e : Effect Shared Pc} (h : startStep ctx callback pc t choice s = some e)
    (hplaced : (Pc.start ctx callback pc).Placed t s.lifecycle) (hlawful : s.lifecycle.Lawful)
    (hfresh : ∀ child entry, e.spawned = some (child, entry) → child ∉ s.created ∧ child ≠ t) :
    Simulated t (.start ctx callback pc) pc.takes s e := by
  have hleave : Simulated t (.start ctx callback pc) pc.takes s ⟨s.leave t, ctx.resume, none⟩ :=
    .leave hplaced.standing
  have hknows := hplaced.knows
  cases pc with
  | lock =>
    simp only [startStep] at h
    split_ifs at h <;> cases h
    · exact hleave
    · exact .stay rfl (hplaced.start ⟨⟩)
  | inspect =>
    have hhandover : s.lifecycle.handover = none := by
      by_contra hsome
      exact Bool.false_ne_true (hknows.symm.trans (hlawful.joining_iff.mpr hsome))
    simp only [startStep] at h
    split at h
    · rename_i w hworker
      split_ifs at h with hexited <;> cases h
      · have hne : w ≠ t := ne_of_handle hplaced.standing hlawful (.inl hworker) fun hself => by
          simp [Shared.lifecycle, hexited] at hself
        have hmove : LockedMove t s.lifecycle _ := .take hknows hworker hne
        exact ⟨hplaced.locked hlawful hmove id rfl rfl ⟨rfl, hne⟩ ⟨⟩,
          .inr ⟨hmove, .inr (.inl (by simp [Pc.holds]))⟩⟩
      · exact .stay rfl (hplaced.start ⟨⟩)
    · rename_i hworker
      cases h
      exact .stay rfl (hplaced.start ⟨hworker, hhandover⟩)
  | faulted =>
    simp only [startStep] at h
    split_ifs at h <;> cases h
    · exact .stay rfl (hplaced.start ⟨⟩)
    · exact hleave
  | reaped =>
    cases h
    have hmove : LockedMove t s.lifecycle _ := .clear hknows
    exact ⟨hplaced.locked hlawful hmove id rfl rfl ⟨⟩ ⟨⟩, .inr ⟨hmove, .inl (by simp [StartPc.takes])⟩⟩
  | exited saved =>
    cases h
    have hmove : LockedMove t s.lifecycle _ := .setExited false hknows
    exact ⟨hplaced.locked hlawful hmove id rfl rfl ⟨hknows, rfl⟩ ⟨⟩,
      .inr ⟨hmove, .inr (.inl (by simp [Pc.holds]))⟩⟩
  | create saved =>
    simp only [startStep] at h
    split at h
    · rename_i w
      cases h
      obtain ⟨hw, hne⟩ := hfresh w _ rfl
      have hmove : LockedMove t s.lifecycle _ := .create hknows.1 hplaced.role.2 hw
      refine ⟨hplaced.locked hlawful hmove (fun ht => ?_) rfl rfl ⟨⟩ ⟨⟩,
        .inr ⟨hmove, .inr (.inl (by simp [Pc.holds]))⟩⟩
      exact fun hmem => (List.mem_cons.mp hmem).elim (fun heq => hne heq.symm) ht
    · cases h
      exact .stay rfl (hplaced.start hknows.1)
    · exact absurd h (by simp)
  | rollbackExited saved =>
    cases h
    have hmove : LockedMove t s.lifecycle _ := .setExited saved.workerExited hknows
    exact ⟨hplaced.locked hlawful hmove id rfl rfl hknows ⟨⟩,
      .inr ⟨hmove, .inr (.inl (by simp [Pc.holds]))⟩⟩
  | rollbackPublish saved =>
    cases h
    refine .stay ?_ (hplaced.start ⟨⟩)
    simp only
    split_ifs
    · exact s.impl.publishFault_lifecycle _ _ s
    · rfl
  | returned | threw =>
    cases h
    exact hleave
  | record saved | data saved | stopping saved | rollbackStopping saved | rollbackRecord saved
  | rollbackData saved | rollbackReset saved =>
    cases h
    exact .stay rfl (hplaced.start hknows)
  | waitJoining | waitExited | join w | reapedNotify | notifyFirst | notifyLifecycle
  | rollbackNotifyFirst | rollbackNotifyLifecycle =>
    exact absurd h (by simp [startStep])

/-- What the end of a destructor's `stop` relies on. -/
theorem Pc.Placed.settled {ctx : Ctx} {caller : Caller} {pc : StopPc}
    (h : (Pc.stop ctx caller pc).Placed t l) (hvacant : l.Vacant) :
    (StopPc.returned.knows caller).In t l := by
  cases caller with
  | destroyImpl => exact ⟨hvacant, h.role.1⟩
  | _ => exact ⟨⟩

/-- A step of `stop`. -/
theorem stopStep_lifecycle {ctx : Ctx} {caller : Caller} {pc : StopPc} {choice : Choice} {s : Shared}
    {e : Effect Shared Pc} (h : stopStep ctx caller pc t choice s = some e)
    (hplaced : (Pc.stop ctx caller pc).Placed t s.lifecycle) (hlawful : s.lifecycle.Lawful) :
    Simulated t (.stop ctx caller pc) pc.takes s e := by
  have hknows := hplaced.knows
  cases pc with
  | lock | command =>
    cases h
    exact .stay rfl (hplaced.stop ⟨⟩)
  | self =>
    simp only [stopStep] at h
    split_ifs at h with hself hjoining
    · cases h
      -- only the callback is called from the worker, and `~Impl` is not called from there
      have hactive := (calledFromWorkerThread_iff.mp hself).2
      refine .stay rfl (hplaced.stop ?_)
      cases caller with
      | destroyImpl =>
        have hctx : ctx.isCallback = false := hplaced.joinable
        have hstanding := hplaced.standing
        cases ctx with
        | callback k => cases hctx
        | outside => exact absurd (hlawful.active t hactive) hstanding
        | deferred => exact absurd (hlawful.active t hactive) hstanding
      | _ => exact ⟨⟩
    · cases h
      exact .stay rfl (hplaced.stop ⟨⟩)
    · have hfree : s.lifecycle.joining = false := Bool.not_eq_true _ ▸ hjoining
      split at h <;> cases h
      · rename_i hworker
        refine .stay rfl (hplaced.stop ⟨hworker, ?_⟩)
        by_contra hsome
        exact hjoining (hlawful.joining_iff.mpr hsome)
      · rename_i w hworker
        have hne : w ≠ t := ne_of_handle hplaced.standing hlawful (.inl hworker) fun hself' =>
          hself (calledFromWorkerThread_iff.mpr hself')
        have hmove : LockedMove t s.lifecycle _ := .take hfree hworker hne
        exact ⟨hplaced.locked hlawful hmove id rfl rfl ⟨rfl, hne⟩ hplaced.joinable,
          .inr ⟨hmove, .inr (.inl (by simp [Pc.holds]))⟩⟩
  | idleFaulted =>
    simp only [stopStep] at h
    split_ifs at h <;> cases h
    · exact .stay rfl (hplaced.stop (hplaced.settled hknows))
    · exact .stay rfl (hplaced.stop hknows)
  | idleState =>
    cases h
    exact .stay rfl (hplaced.stop (hplaced.settled hknows))
  | relock =>
    simp only [stopStep] at h
    split_ifs at h <;> cases h <;> exact .stay rfl (hplaced.stop hknows)
  | joinedState =>
    cases h
    exact .stay rfl (hplaced.stop hknows)
  | joined =>
    cases h
    have hmove : LockedMove t s.lifecycle _ := .clear hknows
    have hworker : s.lifecycle.worker = none := by
      by_contra hsome
      exact absurd ((hlawful.exclusive hsome).symm.trans hknows) (by simp)
    refine ⟨hplaced.locked hlawful hmove id rfl rfl ?_ hplaced.joinable,
      .inr ⟨hmove, .inr (.inl (by simp [Pc.holds]))⟩⟩
    cases caller with
    | destroyImpl => exact ⟨⟨hworker, rfl⟩, hplaced.role.1⟩
    | _ => exact ⟨⟩
  | returned =>
    cases caller with
    | user =>
      cases h
      exact .leave hplaced.standing
    | destroySelf =>
      cases h
      exact .stay rfl ⟨hplaced.standing, hplaced.role, ⟨⟩, ⟨⟩⟩
    | destroyClient =>
      cases h
      exact .stay rfl ⟨hplaced.standing, hplaced.role, ⟨⟩, hplaced.joinable⟩
    | destroyImpl =>
      cases h
      exact .stay rfl ⟨hplaced.standing, hplaced.role, hknows, hplaced.joinable⟩
  | waitJoining | join w | notifyFirst | notifyLifecycle | joinedNotifyLifecycle | joinedNotifyFirst =>
    exact absurd h (by simp [stopStep])

/-- A step of a destructor. -/
theorem destroyStep_lifecycle {ctx : Ctx} {pc : DestroyPc} (choice : Choice) {s : Shared}
    {e : Effect Shared Pc} (h : destroyStep ctx pc t choice s = some e)
    (hplaced : (Pc.destroy ctx pc).Placed t s.lifecycle) :
    Simulated t (.destroy ctx pc) pc.takes s e := by
  have hstanding := hplaced.standing
  cases pc with
  | check =>
    cases h
    refine .stay rfl ⟨?_, ?_, ?_, ?_⟩
    · exact hstanding
    · split_ifs <;> exact hplaced.role
    · split_ifs <;> exact ⟨⟩
    · split_ifs with hself
      · exact ⟨⟩
      · cases ctx with
        | callback k => exact absurd (calledFromWorkerThread_iff.mpr ⟨hstanding.2.2, hstanding.2.1⟩) hself
        | _ => rfl
  | enqueue =>
    cases h
    exact ⟨.resume (by cases ctx <;> exact hstanding), .inl (.enqueue hplaced.role)⟩
  | free =>
    cases h
    exact ⟨.resume (by cases ctx <;> exact hstanding), .inl (.free hplaced.role hplaced.knows.1)⟩

/-- The begin of a call. -/
theorem beginCall_lifecycle {ctx : Ctx} {call : Call} {s : Shared} {e : Effect Shared Pc}
    {takes : List Mutex} (h : beginCall ctx t call s = some e)
    (hstanding : ctx.standing.In t s.lifecycle) (hlawful : s.lifecycle.Lawful) :
    Simulated t p takes s e := by
  have hentered : ctx.standing.In t { s with busy := t :: s.busy }.lifecycle := by
    cases ctx <;> exact hstanding
  have henter : ∀ p' : Pc, s.destroyer.isSome = false → p'.standing = ctx.standing →
      p'.role = .inCall → p'.knows = .nothing → p'.Joinable →
      Simulated t p takes s ⟨{ s with busy := t :: s.busy }, p', none⟩ := by
    intro p' hdestroyer hsame hrole hknows hjoinable
    have hnone : s.lifecycle.destroyer = none :=
      Option.isNone_iff_eq_none.mp (Option.isSome_eq_false_iff.mp hdestroyer)
    exact ⟨⟨hsame ▸ hentered, hrole ▸ ⟨List.mem_cons_self, hnone⟩, hknows ▸ ⟨⟩, hjoinable⟩,
      .inl (.enter hnone)⟩
  cases hdestroyer : s.destroyer.isSome with
  | true => simp [beginCall, hdestroyer] at h
  | false =>
    simp only [beginCall, hdestroyer, Bool.false_eq_true, if_false] at h
    cases call with
    | destroy =>
      have hnone : s.lifecycle.destroyer = none :=
        Option.isNone_iff_eq_none.mp (Option.isSome_eq_false_iff.mp hdestroyer)
      simp only at h
      split_ifs at h with hbusy
      cases h
      exact ⟨⟨by cases ctx <;> exact hstanding, ⟨rfl, hlawful.undestroyed hnone⟩, ⟨⟩, ⟨⟩⟩,
        .inl (.destroy hnone hbusy)⟩
    | _ =>
      cases h
      exact henter _ hdestroyer rfl rfl rfl ⟨⟩

/-- A step of `bias`. -/
theorem biasStep_lifecycle {ctx : Ctx} {pc : BiasPc} {choice : Choice} {s : Shared}
    {e : Effect Shared Pc} (h : biasStep ctx pc t choice s = some e)
    (hplaced : (Pc.bias ctx pc).Placed t s.lifecycle) : Simulated t (.bias ctx pc) pc.takes s e := by
  have hstay : ∀ pc' (s' : Shared), s'.lifecycle = s.lifecycle →
      Simulated t (.bias ctx pc) pc.takes s ⟨s', .bias ctx pc', none⟩ := fun pc' s' hsame =>
    .stay hsame ⟨hplaced.standing, hplaced.role, ⟨⟩, ⟨⟩⟩
  cases pc with
  | send found =>
    simp only [biasStep] at h
    split at h <;> cases h <;> exact hstay _ _ rfl
  | restart =>
    simp only [biasStep] at h
    split at h <;> cases h <;> exact hstay _ _ rfl
  | threw | returned =>
    cases h
    exact .leave hplaced.standing
  | _ =>
    cases h
    exact hstay _ _ rfl

/-- A step of `wait_for_first_sample`. -/
theorem waitStep_lifecycle {ctx : Ctx} {pc : WaitPc} {choice : Choice} {s : Shared}
    {e : Effect Shared Pc} (h : waitStep ctx pc t choice s = some e)
    (hplaced : (Pc.waitForFirstSample ctx pc).Placed t s.lifecycle) :
    Simulated t (.waitForFirstSample ctx pc) pc.takes s e := by
  have hstay : ∀ pc', Simulated t (.waitForFirstSample ctx pc) pc.takes s
      ⟨s, .waitForFirstSample ctx pc', none⟩ := fun pc' =>
    .stay rfl ⟨hplaced.standing, hplaced.role, ⟨⟩, ⟨⟩⟩
  have hleave : Simulated t (.waitForFirstSample ctx pc) pc.takes s ⟨s.leave t, ctx.resume, none⟩ :=
    .leave hplaced.standing
  cases pc with
  | enter =>
    simp only [waitStep] at h
    split at h
    · cases h
      exact hleave
    · split_ifs at h <;> cases h <;> exact hstay _
  | waiting captured => exact absurd h (by simp [waitStep])
  | final captured =>
    cases h
    exact hstay _
  | returned result =>
    cases h
    exact hleave

/-- A step of `health` or of another query. -/
theorem queryStep_lifecycle {ctx : Ctx} {q : Query} (choice : Choice) {s : Shared}
    {e : Effect Shared Pc} {takes : List Mutex} (h : queryStep ctx q t choice s = some e)
    (hplaced : (Pc.query ctx q).Placed t s.lifecycle) : Simulated t (.query ctx q) takes s e := by
  cases q with
  | health now =>
    cases h
    exact ⟨.resume (by have := hplaced.standing; cases ctx <;> exact this), .inl .leave⟩
  | _ =>
    cases h
    exact .leave hplaced.standing

/-- A step of the worker. -/
theorem runStep_lifecycle {pc : RunPc} {choice : Choice} {s : Shared} {e : Effect Shared Pc}
    (h : runStep pc t choice s = some e) (hplaced : (Pc.run pc).Placed t s.lifecycle)
    (hlawful : s.lifecycle.Lawful) : Simulated t (.run pc) pc.takes s e := by
  rcases runStep_cases h with ⟨k, call, rfl, hcall⟩ | ⟨impl, sessions, next, hstep, rfl⟩
  · exact beginCall_lifecycle hcall hplaced.standing hlawful
  · by_cases hexited : pc = .finishExited
    · subst hexited
      cases hstep
      exact ⟨⟨hplaced.standing.1, ⟨⟩, ⟨⟩, ⟨⟩⟩, .inl (.exit hplaced.standing)⟩
    · have hstage := RunPc.step_stage hstep hexited
      refine .stay ?_ ⟨?_, ⟨⟩, ⟨⟩, ⟨⟩⟩
      · have hhandles := RunPc.step_handles hstep hexited
        simp [Shared.lifecycle, hhandles]
      · simpa only [Pc.standing, hstage] using hplaced.standing

/-- **Every action is a move of the lifecycle**, and finds what the next control point relies on. -/
theorem act_lifecycle {takes : List Mutex} {f : Action} {choice : Choice} {s : Shared}
    {e : Effect Shared Pc} (hinstr : p.instr = .act takes f) (h : f t choice s = some e)
    (hplaced : p.Placed t s.lifecycle) (hlawful : s.lifecycle.Lawful)
    (hfresh : ∀ child entry, e.spawned = some (child, entry) → child ∉ s.created ∧ child ≠ t) :
    Simulated t p takes s e := by
  obtain ⟨rfl, rfl⟩ := Pc.instr_act hinstr
  cases p with
  | outside =>
    simp only [Pc.action, outsideStep] at h
    split at h
    · exact beginCall_lifecycle h hplaced.standing hlawful
    · exact absurd h (by simp)
  | deferred =>
    simp only [Pc.action, deferredStep] at h
    split_ifs at h with hpending
    cases h
    refine ⟨⟨hplaced.standing, ⟨rfl, rfl, ?_⟩, ⟨⟩, rfl⟩, .inl (.dequeue hpending)⟩
    cases hfreed : s.freed with
    | false => rfl
    | true => exact absurd ((hlawful.freed hfreed).2.symm.trans hpending) (by simp)
  | start ctx callback pc => exact startStep_lifecycle h hplaced hlawful hfresh
  | stop ctx caller pc => exact stopStep_lifecycle h hplaced hlawful
  | bias ctx pc => exact biasStep_lifecycle h hplaced
  | waitForFirstSample ctx pc => exact waitStep_lifecycle h hplaced
  | query ctx q => exact queryStep_lifecycle choice h hplaced
  | destroy ctx pc => exact destroyStep_lifecycle choice h hplaced
  | run pc => exact runStep_lifecycle h hplaced hlawful

/-! ## The outline -/

/-- A notify, and a wait that is over, leave the thread where it may be. -/
theorem placed_of_passes {s : Shared} (h : program.Passes p q s) (hplaced : p.Placed t s.lifecycle)
    (hlawful : s.lifecycle.Lawful) : q.Placed t s.lifecycle := by
  obtain ⟨hstanding, hrole, hknows, hjoinable⟩ := hplaced
  cases goesOn_of_passes h with
  | startJoining ctx callback hjoining => exact ⟨hstanding, hrole, hjoining, ⟨⟩⟩
  | deliveredLifecycle k =>
    exact ⟨by rw [Pc.standing, RunPc.afterRecord_stage]; exact hstanding, hrole, ⟨⟩, ⟨⟩⟩
  | finishLifecycle => exact ⟨(hlawful.handle t hstanding).1, hrole, ⟨⟩, ⟨⟩⟩
  | _ => exact ⟨hstanding, hrole, hknows, hjoinable⟩

/-- The lifecycle is lawful, and every thread may rely on what its control point says. -/
def lifecycleOutline : Outline Shared Pc Mutex where
  global s := s.lifecycle.Lawful
  lock _ _ := True
  point t p s := p.Placed t s.lifecycle

/-- Another thread's action leaves a control point what it relies on. -/
theorem Pc.Placed.frame {takes : List Mutex} {s : Shared} {e : Effect Shared Pc}
    (h : q.Placed u s.lifecycle) (hlawful : s.lifecycle.Lawful) (hsim : Simulated t p takes s e)
    (hne : u ≠ t) (hfresh : u ∉ s.lifecycle.created → u ∉ e.shared.lifecycle.created)
    (hlock : program.waits q = false → ∀ m ∈ q.holds, m ∉ takes ∧ m ∉ p.holds ∧ m ∉ e.next.holds) :
    q.Placed u e.shared.lifecycle := by
  rcases hsim.move with hmove | ⟨hmove, hheld⟩
  · exact h.move hlawful hmove hne
  · refine h.lockedMove hlawful hmove hne hfresh fun hneeds => ?_
    obtain ⟨hholds, hwait⟩ := Pc.holds_of_needsLock hneeds
    obtain ⟨htakes, hbefore, hafter⟩ := hlock hwait _ hholds
    rcases hheld with h | h | h
    · exact htakes h
    · exact hbefore h
    · exact hafter h

/-- Where a join stands, its thread holds the handle. -/
theorem handover_of_join {w : Tid} {f : Tid → Shared → Shared} {s : Shared}
    (hinstr : p.instr = .join w f q) (h : p.Placed t s.lifecycle) :
    s.handover = some (t, some w) ∧ w ≠ t := by
  obtain ⟨-, ⟨ctx, callback, rfl, -⟩ | ⟨ctx, caller, rfl, -⟩⟩ := Pc.instr_join hinstr <;> exact h.knows

theorem isEnded_iff : p.isEnded = true ↔ p = .run .ended := by
  cases p with
  | run pc => cases pc <;> simp [Pc.isEnded]
  | _ => simp [Pc.isEnded]

/-- Every action of a thread that is in its place makes moves of the lifecycle. -/
theorem simulated {takes : List Mutex} {f : Action} {choice : Choice} {s : Shared}
    {e : Effect Shared Pc}
    (h : program.Acts (Outline.trivial.meet lifecycleOutline) t p takes f choice s e) :
    Simulated t p takes s e :=
  act_lifecycle h.instr h.effect h.point.2 h.global.2 fun child entry hspawned => by
    obtain ⟨hne, q, hfresh, -, hq⟩ := h.starts child entry hspawned
    cases q <;> cases hfresh
    exact ⟨hq.standing, hne⟩

/-- The places are an outline of the program. -/
theorem lifecycle_justified : program.Justifies .trivial lifecycleOutline where
  act := by
    intro t p takes f choice s e h
    have hsim := simulated h
    refine ⟨?_, hsim.next⟩
    rcases hsim.move with hmove | ⟨hmove, -⟩
    · exact h.global.2.move hmove
    · exact h.global.2.lockedMove hmove
  spawn := by
    intro t p takes f choice s e child entry q h hspawned _ _ _
    obtain ⟨rfl, rfl⟩ := Pc.instr_act h.instr
    by_cases hcreate : ∃ ctx callback saved, p = .start ctx callback (.create saved)
    · obtain ⟨ctx, callback, saved, rfl⟩ := hcreate
      have hknows : Knows.opened.In t s.lifecycle := h.point.2.knows
      rcases create_cases h.effect with ⟨w, rfl⟩ | rfl
      · cases hspawned
        exact ⟨⟨.inl rfl, rfl, hknows.2⟩, ⟨⟩, ⟨⟩, ⟨⟩⟩
      · cases hspawned
    · have hnone := action_spawned h.effect fun ctx callback saved heq =>
        hcreate ⟨ctx, callback, saved, heq⟩
      simp [hnone.1] at hspawned
  frame := by
    intro t p takes f choice s e u q h hne hchild hq hlock
    refine Pc.Placed.frame hq.2 h.global.2 (simulated h) hne (fun hu => ?_) hlock
    obtain ⟨rfl, rfl⟩ := Pc.instr_act h.instr
    by_cases hcreate : ∃ ctx callback saved, p = .start ctx callback (.create saved)
    · obtain ⟨ctx, callback, saved, rfl⟩ := hcreate
      rcases create_cases h.effect with ⟨w, rfl⟩ | rfl
      · exact fun hmem => (List.mem_cons.mp hmem).elim (hchild w _ rfl) hu
      · exact hu
    · have hsame := (action_spawned h.effect fun ctx callback saved heq =>
        hcreate ⟨ctx, callback, saved, heq⟩).2
      change u ∉ e.shared.created
      rwa [hsame]
  release _ _ _ := trivial
  pass h hglobal hpoint := ⟨placed_of_passes h hpoint.2 hglobal.2, fun _ _ _ => trivial⟩
  block _ _ _ _ _ := trivial
  join := by
    intro t p child f q r s h
    obtain ⟨hhandover, hne⟩ := handover_of_join h.instr h.point.2
    obtain ⟨rfl, hjoin⟩ := Pc.instr_join h.instr
    obtain ⟨hstanding, hrole, -, hjoinable⟩ := h.point.2
    refine ⟨h.global.2.join hhandover hne, ?_, fun _ _ _ => trivial⟩
    rcases hjoin with ⟨ctx, callback, rfl, rfl⟩ | ⟨ctx, caller, rfl, rfl⟩
    · exact ⟨hstanding.join h.global.2 hhandover hne.symm, hrole.join, rfl, ⟨⟩⟩
    · exact ⟨hstanding.join h.global.2 hhandover hne.symm, hrole.join, rfl, hjoinable⟩
  joinFrame := by
    intro t p child f q r s u v h hne hended hv _
    obtain ⟨hhandover, hchild⟩ := handover_of_join h.instr h.point.2
    obtain ⟨rfl, -⟩ := Pc.instr_join h.instr
    obtain ⟨hstanding, hrole, hknows, hjoinable⟩ := hv.2
    refine ⟨?_, hrole.join, hknows.join h.global.2 hhandover hne, hjoinable⟩
    by_cases hu : u = child
    · obtain rfl := isEnded_iff.mp h.ended
      obtain rfl := hended hu
      exact hstanding
    · exact hstanding.join h.global.2 hhandover hu

/-- **In every reachable state the lifecycle is lawful**, and threads stand where they may. -/
theorem System.Reachable.lifecycle {config : Config} {s : System} (h : s.Reachable config) :
    lifecycleOutline.Holds s := by
  refine lifecycle_justified.invariant System.init_consistent (fun s _ => Outline.trivial_holds s) ?_ h
  refine ⟨?_, fun _ _ => trivial, fun t => ?_⟩
  · constructor <;> simp [System.init, Shared.lifecycle, Impl.init, Lifecycle.Handle]
  · simp only [System.init]
    split_ifs <;> exact ⟨List.not_mem_nil, ⟨⟩, ⟨⟩, ⟨⟩⟩

end NetFT.Client
