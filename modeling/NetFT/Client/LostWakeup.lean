/-
# NetFT.Client.LostWakeup — the wake-ups of `Client::Impl`.

Every step that makes the predicate of a wait true has a notify of its condition variable ahead
(`client_announces`).  `finish_session` stores `worker_exited_` and `stop` stores `stopping_` without the
mutex of the waits that read them, so the notify can fall between the evaluation of a predicate and the
block.

* **`wakeups_iff_timely`**: runs without such a notify leave nobody stranded, and every such notify leaves
  a thread that is stranded as soon as it blocks.
* `faulted_start_hangs`: thread 1 calls `start` after a fault, and the worker exits in between.
-/
import NetFT.Client.WorkerSafety
import NetFT.Library.Wakeup

namespace NetFT.Client

set_option autoImplicit false

open Library (Runs restrict)
open Library.Threads (Tid Effect Instr Program Sys)
open Library.Threads.Program (Ahead)

/-! ## Notifies ahead -/

section

variable {ctx : Ctx} {callback : SampleCallback} {saved : Saved} {c : CondVar}

/-- An action that only goes on to `q` has ahead what `q` has ahead. -/
theorem ahead_of_goto {p q : Pc} (hinstr : p.instr = .act p.takes p.action)
    (hgoto : ∀ t choice s, ∃ s', p.action t choice s = some ⟨s', q, none⟩) (h : program.Ahead c q) :
    program.Ahead c p := by
  refine .act hinstr (fun t s => ⟨.proceed, ?_⟩) fun t choice s e he => ?_
  · obtain ⟨s', hs'⟩ := hgoto t .proceed s
    rw [hs']
    rfl
  · obtain ⟨s', hs'⟩ := hgoto t choice s
    cases hs'.symm.trans he
    exact h

/-- Two notifies in a row are ahead for both condition variables. -/
theorem ahead_of_notifies {p q r : Pc} {a b : CondVar} (hfirst : p.instr = .notify a q)
    (hsecond : q.instr = .notify b r) (hboth : c = a ∨ c = b) : program.Ahead c p := by
  rcases hboth with rfl | rfl
  · exact .here hfirst
  · exact .notify hfirst (.here hsecond)

/-- There are two condition variables. -/
theorem CondVar.first_or_lifecycle (c : CondVar) : c = .firstSample ∨ c = .lifecycle := by
  cases c <;> simp

/-- `start` is about to notify the waits for a first sample. -/
theorem start_notifies : program.Ahead c (.start ctx callback .notifyFirst) :=
  ahead_of_notifies rfl rfl c.first_or_lifecycle

/-- Its rollback too. -/
theorem rollback_notifies : program.Ahead c (.start ctx callback .rollbackNotifyFirst) :=
  ahead_of_notifies rfl rfl c.first_or_lifecycle

/-- `stop` is about to notify. -/
theorem stop_notifies {caller : Caller} : program.Ahead c (.stop ctx caller .notifyFirst) :=
  ahead_of_notifies rfl rfl c.first_or_lifecycle

/-- After the join it is about to notify the lifecycle. -/
theorem joined_notifies {caller : Caller} :
    program.Ahead c (.stop ctx caller .joinedNotifyLifecycle) :=
  ahead_of_notifies rfl rfl c.first_or_lifecycle.symm

/-- The worker is about to notify after a delivery. -/
theorem delivered_notifies {k : Invocation} : program.Ahead c (.run (.deliveredFirst k)) :=
  ahead_of_notifies rfl rfl c.first_or_lifecycle

/-- After a fault it is. -/
theorem publish_notifies : program.Ahead c (.run .publishNotifyFirst) :=
  ahead_of_notifies rfl rfl c.first_or_lifecycle

/-- At its end it is. -/
theorem finish_notifies : program.Ahead c (.run .finishNotifyFirst) :=
  ahead_of_notifies rfl rfl c.first_or_lifecycle

theorem finish_ahead : program.Ahead c (.run .finishFaulted) := by
  have hstate : program.Ahead c (.run .finishState) :=
    ahead_of_goto rfl (fun _ _ _ => ⟨_, rfl⟩) finish_notifies
  refine .act rfl (fun _ _ => ⟨.proceed, rfl⟩) fun t choice s e he => ?_
  have hstep : runStep .finishFaulted t choice s = some e := he
  rcases runStep_cases hstep with ⟨_, _, heq, -⟩ | ⟨impl, sessions, next, hnext, rfl⟩
  · cases heq
  · simp only [RunPc.step, RunPc.stepOpen, RunPc.stepLoop, RunPc.stepClose] at hnext
    cases hnext
    cases hfaulted : s.impl.faulted
    · exact hstate
    · exact finish_notifies

/-- The rollback of `start` ends with both notifies. -/
theorem rollbackPublish_ahead : program.Ahead c (.start ctx callback (.rollbackPublish saved)) :=
  ahead_of_goto rfl (fun _ _ _ => ⟨_, rfl⟩) rollback_notifies

/-- The rollback has its notifications ahead, from every point on. -/
theorem rollbackReset_ahead : program.Ahead c (.start ctx callback (.rollbackReset saved)) :=
  ahead_of_goto rfl (fun _ _ _ => ⟨_, rfl⟩) rollbackPublish_ahead

theorem rollbackData_ahead : program.Ahead c (.start ctx callback (.rollbackData saved)) :=
  ahead_of_goto rfl (fun _ _ _ => ⟨_, rfl⟩) rollbackReset_ahead

theorem rollbackRecord_ahead : program.Ahead c (.start ctx callback (.rollbackRecord saved)) :=
  ahead_of_goto rfl (fun _ _ _ => ⟨_, rfl⟩) rollbackData_ahead

theorem rollbackExited_ahead : program.Ahead c (.start ctx callback (.rollbackExited saved)) :=
  ahead_of_goto rfl (fun _ _ _ => ⟨_, rfl⟩) rollbackRecord_ahead

theorem rollback_ahead : program.Ahead c (.start ctx callback (.rollbackStopping saved)) :=
  ahead_of_goto rfl (fun _ _ _ => ⟨_, rfl⟩) rollbackExited_ahead

/-- The creation of the worker goes on to them, or to the rollback. -/
theorem create_ahead : program.Ahead c (.start ctx callback (.create saved)) := by
  refine .act rfl (fun _ _ => ⟨.fail "", rfl⟩) fun t choice s e he => ?_
  rcases create_cases he with ⟨w, rfl⟩ | rfl
  · exact start_notifies
  · exact rollback_ahead

/-- So does the rest of a `start` that creates a worker. -/
theorem exited_ahead : program.Ahead c (.start ctx callback (.exited saved)) :=
  ahead_of_goto rfl (fun _ _ _ => ⟨_, rfl⟩) create_ahead

theorem stopping_ahead : program.Ahead c (.start ctx callback (.stopping saved)) :=
  ahead_of_goto rfl (fun _ _ _ => ⟨_, rfl⟩) exited_ahead

end

/-! ## What makes a predicate true -/

/-- No predicate of a wait on the condition variable becomes true. -/
structure Unmoved (v : CondVar) (c c' : Impl) : Prop where
  joining : v = .lifecycle → c'.joining = false → c.joining = false
  exited : v = .lifecycle → c'.workerExited = true → c.workerExited = true
  stopping : v = .firstSample → c'.stopping = true → c.stopping = true
  generation : v = .firstSample → c'.generation = c.generation
  delivered : v = .firstSample → c'.deliveredGeneration = c.deliveredGeneration
  fault : c'.faultLatch = c.faultLatch

theorem Unmoved.refl (v : CondVar) (c : Impl) : Unmoved v c c :=
  ⟨fun _ => id, fun _ => id, fun _ => id, fun _ => rfl, fun _ => rfl, rfl⟩

/-- What leaves the lifecycle alone makes no predicate true. -/
theorem SameLifecycle.unmoved {c c' : Impl} (h : SameLifecycle c c') (v : CondVar) : Unmoved v c c' where
  joining _ := by rw [h.joining]; exact id
  exited _ := by rw [h.workerExited]; exact id
  stopping _ := by rw [h.stopping]; exact id
  generation _ := h.generation
  delivered _ := h.deliveredGeneration
  fault := h.faultLatch

/-- A wait finds its predicate as it was. -/
theorem Unmoved.ready {v : CondVar} {s s' : Shared} (h : Unmoved v s.impl s'.impl) {p q : Pc}
    {ready : Shared → Bool} {timeout : Option Pc} (hinstr : p.instr = .wait v ready q timeout)
    (hready : ready s' = true) : ready s = true := by
  have hfaulted : s'.impl.faulted = s.impl.faulted := by rw [Impl.faulted, Impl.faulted, h.fault]
  rcases Pc.instr_wait hinstr with ⟨_, _, -, -, hv, heq, -⟩ | ⟨_, _, -, -, hv, heq, -⟩ |
    ⟨_, _, -, -, hv, heq, -⟩ | ⟨_, _, -, -, hv, heq, -⟩ | ⟨_, -, -, hv, heq, -⟩ <;>
    rw [heq] at hready ⊢
  · rw [Bool.not_eq_true'] at hready ⊢
    exact h.joining hv hready
  · rw [hfaulted, Bool.or_eq_true] at hready
    rw [Bool.or_eq_true]
    exact hready.imp_left (h.exited hv)
  · rw [Bool.not_eq_true'] at hready ⊢
    exact h.joining hv hready
  · simp only [Impl.firstSampleReady, h.generation hv, h.delivered hv, hfaulted, Bool.or_eq_true] at hready ⊢
    exact hready.imp_left fun hleft => hleft.imp_right (h.stopping hv)
  · exact h.stopping hv hready

section

variable {p : Pc} {t : Tid} {choice : Choice} {s : Shared} {e : Effect Shared Pc}

/-- A step of `start` makes a predicate true only with the notification ahead. -/
theorem startStep_unmoved {ctx : Ctx} {callback : SampleCallback} {pc : StartPc}
    (h : startStep ctx callback pc t choice s = some e) (v : CondVar) :
    Unmoved v s.impl e.shared.impl ∨ program.Ahead v e.next := by
  cases pc with
  | data saved =>
    cases h
    exact .inr stopping_ahead
  | stopping saved =>
    cases h
    exact .inr exited_ahead
  | exited saved =>
    cases h
    exact .inr create_ahead
  | create saved =>
    rcases create_cases (t := t) h with ⟨w, rfl⟩ | rfl
    · exact .inr start_notifies
    · exact .inr rollback_ahead
  | rollbackStopping saved =>
    cases h
    exact .inr rollbackExited_ahead
  | rollbackExited saved =>
    cases h
    exact .inr rollbackRecord_ahead
  | rollbackRecord saved =>
    cases h
    exact .inr rollbackData_ahead
  | rollbackData saved =>
    cases h
    exact .inr rollbackReset_ahead
  | rollbackReset saved =>
    cases h
    exact .inr rollbackPublish_ahead
  | rollbackPublish saved =>
    cases h
    exact .inr rollback_notifies
  | reaped =>
    cases h
    cases v with
    | lifecycle => exact .inr (.here rfl)
    | firstSample => exact .inl ⟨fun hv => (by cases hv), fun _ => id, fun _ => id, fun _ => rfl,
        fun _ => rfl, rfl⟩
  | _ =>
    refine .inl ?_
    simp only [startStep] at h
    constructor <;> grind [Impl.clearLastDelivery, Shared.leave]

/-- So does a step of `stop`. -/
theorem stopStep_unmoved {ctx : Ctx} {caller : Caller} {pc : StopPc}
    (h : stopStep ctx caller pc t choice s = some e) (v : CondVar) :
    Unmoved v s.impl e.shared.impl ∨ program.Ahead v e.next := by
  cases pc with
  | lock =>
    cases h
    exact .inr stop_notifies
  | joined =>
    cases h
    exact .inr joined_notifies
  | _ =>
    refine .inl ?_
    cases caller <;> simp only [stopStep] at h <;> constructor <;>
      grind [Impl.setSessionStarted, Impl.shutdownTransport, Impl.setState, Shared.leave]

/-- So does a step of the worker. -/
theorem runStep_unmoved {pc : RunPc} (h : runStep pc t choice s = some e) (v : CondVar) :
    Unmoved v s.impl e.shared.impl ∨ program.Ahead v e.next := by
  rcases runStep_cases h with ⟨k, call, -, hbegin⟩ | ⟨impl, sessions, next, hstep, rfl⟩
  · rw [beginCall_impl hbegin]
    exact .inl (.refl v s.impl)
  · cases pc with
    | deliver k =>
      cases hstep
      exact .inr delivered_notifies
    | publish code message =>
      cases hstep
      exact .inr publish_notifies
    | finishExited =>
      cases hstep
      exact .inr finish_ahead
    | _ => exact .inl ((RunPc.step_frame hstep (by simp) (by simp) (by simp)).unmoved v)

/-- **Who makes a predicate true, has the notify ahead.** -/
theorem action_unmoved (h : p.action t choice s = some e) (v : CondVar) :
    Unmoved v s.impl e.shared.impl ∨ program.Ahead v e.next := by
  cases p with
  | start ctx callback pc => exact startStep_unmoved h v
  | stop ctx caller pc => exact stopStep_unmoved h v
  | run pc => exact runStep_unmoved h v
  | _ =>
    rcases action_impl h rfl with himpl | ⟨-, himpl⟩ | ⟨now, -, himpl⟩ <;> rw [himpl]
    · exact .inl (.refl v s.impl)
    all_goals exact .inl ⟨fun _ => id, fun _ => id, fun _ => id, fun _ => rfl, fun _ => rfl, rfl⟩

end

/-- A thread whose action may be disabled has nothing ahead. -/
theorem not_ahead_of_disabled {p : Pc} {v : CondVar} {t : Tid} {s : Shared}
    (hinstr : p.instr = .act p.takes p.action) (hdisabled : ∀ choice, p.action t choice s = none) :
    ¬ program.Ahead v p := by
  intro h
  cases h with
  | here h => cases hinstr.symm.trans h
  | notify h _ => cases hinstr.symm.trans h
  | act h henabled _ =>
    obtain ⟨-, rfl⟩ := Pc.instr_act h
    obtain ⟨choice, hchoice⟩ := henabled t s
    rw [hdisabled choice] at hchoice
    cases hchoice

/-- A thread may never call the client again. -/
theorem not_ahead_outside {v : CondVar} : ¬ program.Ahead v .outside := by
  let destroyed : Shared := { impl := .init {}, destroyer := some 0 }
  refine not_ahead_of_disabled (t := 0) (s := destroyed) rfl fun choice => ?_
  cases choice <;> rfl

/-- `DeferredDestroyer` may never have a client to destroy. -/
theorem not_ahead_deferred {v : CondVar} : ¬ program.Ahead v .deferred := by
  let idle : Shared := { impl := .init {} }
  exact not_ahead_of_disabled (t := 0) (s := idle) rfl fun choice => rfl

/-- A worker that has ended notifies nobody. -/
theorem not_ahead_ended {v : CondVar} : ¬ program.Ahead v (.run .ended) := by
  let idle : Shared := { impl := .init {} }
  refine not_ahead_of_disabled (t := 0) (s := idle) rfl fun choice => ?_
  cases choice <;> rfl

/-- **Whoever makes a predicate true has the notification ahead.** -/
theorem client_announces : program.Announces where
  act := by
    intro p takes f t choice s e p' v ready q timeout hinstr hf hwait hbefore hafter
    obtain ⟨rfl, rfl⟩ := Pc.instr_act hinstr
    rcases action_unmoved hf v with hunmoved | hahead
    · exact absurd (hbefore.symm.trans (hunmoved.ready hwait hafter)) (by simp)
    · exact hahead
  join := by
    intro p child f q t s p' v ready q' timeout hinstr hwait hready
    obtain ⟨rfl, -⟩ := Pc.instr_join hinstr
    have hunmoved : Unmoved v s.impl (recordJoin child t s).impl := .refl v s.impl
    exact hunmoved.ready hwait hready
  fresh := by
    intro p v hfresh h
    cases p <;> cases hfresh
    exact not_ahead_outside h

/-! ## Runs -/

/-- A run without an early notify strands nobody, and every early notify strands a thread as soon as it
blocks. -/
theorem wakeups_iff_timely (config : Config) :
    (∀ s is u, Runs (restrict Step program.Timely) (System.init config) is s →
      ¬ program.Stranded s u) ∧
    ∀ (s s' : System) (t : Tid) (choice : Choice), s.Reachable config → Step s (go t choice) s' →
      ¬ program.Timely s (go t choice) →
      ∃ u s'', Step s' (⟨u, .block⟩ : Input) s'' ∧ program.Stranded s'' u := by
  constructor
  · intro s is u hruns
    refine client_announces.not_stranded (fun t => ?_) hruns u
    simp only [System.init]
  · intro s s' t choice _ hstep hearly
    exact Program.strands_of_not_timely hstep hearly

/-! ## A `start` that hangs -/

/-- A thread that has not moved is outside, unless it was created. -/
theorem outside_or_created {config : Config} {s s' : System} {i : Input} {u : Tid}
    (h : s.Reachable config) (hstep : Step s i s') (hne : u ≠ i.tid)
    (hu : (s.threads u).pc = .outside ∨ u ∈ s.shared.created) :
    (s'.threads u).pc = .outside ∨ u ∈ s'.shared.created := by
  by_cases hact : ∃ takes f, (s.threads i.tid).pc.instr = .act takes f
  · obtain ⟨takes, f, hinstr⟩ := hact
    obtain ⟨choice, e, -, hf, hshared, -, hothers⟩ := h.consistent.step_act hstep hinstr
    obtain ⟨-, rfl⟩ := Pc.instr_act hinstr
    rw [hshared]
    by_cases hcreate : ∃ ctx callback saved, (s.threads i.tid).pc = .start ctx callback (.create saved)
    · obtain ⟨ctx, callback, saved, hp⟩ := hcreate
      rw [hp] at hf
      rcases create_cases (t := i.tid) hf with ⟨w, rfl⟩ | rfl
      · rcases hothers u hne with hsame | ⟨-, hspawned⟩
        · rw [hsame]
          exact hu.imp_right (List.mem_cons_of_mem w)
        · simp only [Option.some.injEq, Prod.mk.injEq] at hspawned
          rw [hspawned.1]
          exact .inr List.mem_cons_self
      · rcases hothers u hne with hsame | ⟨-, hspawned⟩
        · rw [hsame]
          exact hu
        · cases hspawned
    · obtain ⟨hnone, hcreated⟩ := action_spawned hf fun ctx callback saved heq =>
        hcreate ⟨ctx, callback, saved, heq⟩
      rw [hcreated]
      rcases hothers u hne with hsame | ⟨-, hspawned⟩
      · rw [hsame]
        exact hu
      · simp [hnone] at hspawned
  · have hcreated : s'.shared.created = s.shared.created := by
      rcases Program.step_shared hstep with hsame | ⟨takes, f, _, _, hinstr, -⟩ |
        ⟨child, f, q, hinstr, hshared⟩
      · rw [hsame]
      · exact absurd ⟨takes, f, hinstr⟩ hact
      · obtain ⟨rfl, -⟩ := Pc.instr_join hinstr
        rw [hshared]
        rfl
    rw [hcreated]
    rcases Program.step_pc hstep u with hsame | ⟨rfl, -⟩ | ⟨rfl, -⟩ | ⟨rfl, -⟩ |
      ⟨-, takes, f, _, _, hinstr, -⟩
    · rw [hsame]
      exact hu
    · exact absurd rfl hne
    · exact absurd rfl hne
    · exact absurd rfl hne
    · exact absurd ⟨takes, f, hinstr⟩ hact

/-- The worker has faulted; thread 1 calls `start` and evaluates the predicate; the worker stores
`worker_exited_`, notifies and ends; thread 1 blocks. -/
def hangRun : List Input :=
  startRun ++ discoveryFails ++ steps 2 7 ++ go 1 (.call (.start none)) :: steps 1 5 ++ steps 2 4 ++
    [⟨1, .block⟩]

/-- Nobody is left to wake thread 1. -/
theorem faulted_start_hangs :
    ¬ ∀ (config : Config) (s : System), s.Reachable config → ∀ u, ¬ program.Stranded s u := by
  have hrun : ((Library.execute (Library.restrictNext program.next fun _ i => i.tid = 1 ∨ i.tid = 2)
      (System.init failStopConfig) hangRun).map fun s =>
        decide ((s.threads 1).mode = .blocked ∧ (s.threads 1).pc = .start .outside none .waitExited ∧
          s.shared.impl.workerExited = true ∧ (s.threads 0).pc = .deferred ∧
          (s.threads 2).pc = .run .ended ∧ s.shared.created = [2])) = some true := by
    decide +kernel
  obtain ⟨s, hruns, hs⟩ := Library.exists_runs_of_execute hrun
  obtain ⟨hblocked, hwaits, hexited, hdeferred, hended, hcreated⟩ := of_decide_eq_true hs
  have hboth : System.Reachable failStopConfig s ∧
      ∀ u, u ≠ 0 → u ≠ 1 → u ≠ 2 → (s.threads u).pc = .outside ∨ u ∈ s.shared.created := by
    refine hruns.invariant (I := fun s => System.Reachable failStopConfig s ∧
      ∀ u, u ≠ 0 → u ≠ 1 → u ≠ 2 → (s.threads u).pc = .outside ∨ u ∈ s.shared.created) ?_
      ⟨.init, fun u hu _ _ => ?_⟩
    · rintro s i s' ⟨hreach, hinv⟩ hstep
      obtain ⟨htid, hnext⟩ := Library.restrictNext_restrict hstep
      refine ⟨hreach.snoc hnext, fun u h₀ h₁ h₂ => ?_⟩
      refine outside_or_created hreach hnext (fun heq => ?_) (hinv u h₀ h₁ h₂)
      rcases htid with htid | htid
      · exact h₁ (heq.trans htid)
      · exact h₂ (heq.trans htid)
    · exact .inl (by simp [System.init, hu])
  intro hnone
  refine hnone failStopConfig s hboth.1 1 ⟨hblocked, .lifecycle, ?_, ?_⟩
  · refine ⟨_, .start .outside none .lock, none, by rw [hwaits]; rfl, ?_⟩
    simp [hexited]
  · rintro ⟨v, hrunning, hahead⟩
    by_cases h₀ : v = 0
    · rw [h₀, hdeferred] at hahead
      exact not_ahead_deferred hahead
    by_cases h₁ : v = 1
    · rw [h₁, hblocked] at hrunning
      cases hrunning
    by_cases h₂ : v = 2
    · rw [h₂, hended] at hahead
      exact not_ahead_ended hahead
    rcases hboth.2 v h₀ h₁ h₂ with houtside | hmem
    · rw [houtside] at hahead
      exact not_ahead_outside hahead
    · rw [hcreated, List.mem_singleton] at hmem
      exact h₂ hmem

end NetFT.Client
