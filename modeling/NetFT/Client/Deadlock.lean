/-
# NetFT.Client.Deadlock — the mutexes of the client are always released.

The header of `Client::Impl` says that locks are acquired in command -> record -> data order.  With
`lifecycle_mutex_` before all three this is the order in which every section of the client locks, the
nested ones of `observe` and `deliver` included.

* `lockOrder`: the program locks upward in `Mutex.rank`.
* `releases`: a thread that holds a mutex needs nobody else to go on, and has at most
  `Pc.budget` moves left before it holds nothing.
* **`deadlockFree`**: in every reachable state the owners alone release every mutex.
-/
import NetFT.Library.LockOrder
import NetFT.Client.WorkerSafety

namespace NetFT.Client

set_option autoImplicit false

open Library (Runs)
open Library.Threads (Tid Effect Instr Program Sys)

/-! ## The order of the mutexes -/

/-- The order in which the mutexes are taken. -/
def Mutex.rank : Mutex → ℕ
  | .lifecycle => 0
  | .command => 1
  | .record => 2
  | .data => 3

/-- The mutexes of a client. -/
def Mutex.all : List Mutex := [.lifecycle, .command, .record, .data]

instance : Fintype Mutex where
  elems := Mutex.all.toFinset
  complete m := by cases m <;> decide

theorem Mutex.card : Fintype.card Mutex = 4 := by decide

/-- Going on from a thread's locks `held` to `next` locks upward. -/
def Upward (held next : List Mutex) : Prop :=
  ∀ m ∈ next, m ∉ held → ∀ m' ∈ held, m'.rank < m.rank

theorem upward_nil (next : List Mutex) : Upward [] next := by
  intro m _ _ m' hm'
  exact absurd hm' List.not_mem_nil

/-- Nothing new is taken. -/
theorem upward_of_subset {held next : List Mutex} (h : next ⊆ held) : Upward held next :=
  fun _ hm hnot => absurd (h hm) hnot

theorem Ctx.resume_holds (ctx : Ctx) : ctx.resume.holds = [] := by
  cases ctx <;> rfl

/-- One section locks upward, and above what its thread holds. -/
theorem takes_upward (p : Pc) :
    p.takes.Pairwise (fun m m' => m.rank < m'.rank) ∧ Upward p.holds p.takes := by
  cases p with
  | start ctx callback pc =>
    cases pc <;> simp [Pc.takes, StartPc.takes, Pc.holds, Upward, Mutex.rank]
  | stop ctx caller pc => cases pc <;> simp [Pc.takes, StopPc.takes, Pc.holds, Upward, Mutex.rank]
  | bias ctx pc => cases pc <;> simp [Pc.takes, BiasPc.takes, Pc.holds, Upward, Mutex.rank]
  | waitForFirstSample ctx pc =>
    cases pc <;> simp [Pc.takes, WaitPc.takes, Pc.holds, Upward, Mutex.rank]
  | query ctx q => cases q <;> simp [Pc.takes, Query.takes, Pc.holds, Upward]
  | destroy ctx pc => cases pc <;> simp [Pc.takes, DestroyPc.takes, Pc.holds, Upward]
  | run pc => cases pc <;> simp [Pc.takes, RunPc.takes, Pc.holds, Upward, Mutex.rank]
  | outside | deferred => simp [Pc.takes, Pc.holds, Upward]

section

variable {t : Tid} {choice : Choice} {s : Shared} {e : Effect Shared Pc}

/-- A call begins outside every mutex. -/
theorem beginCall_holds {ctx : Ctx} {call : Call} (h : beginCall ctx t call s = some e) :
    e.next.holds = [] := by
  cases call <;> grind [beginCall, Pc.holds]

/-- `start` takes its mutexes upward. -/
theorem startStep_upward {ctx : Ctx} {callback : SampleCallback} {pc : StartPc}
    (h : startStep ctx callback pc t choice s = some e) :
    Upward (Pc.start ctx callback pc).holds e.next.holds := by
  have hresume := ctx.resume_holds
  cases pc <;> simp only [startStep] at h <;> grind [Pc.holds, Upward]

/-- So does `stop`. -/
theorem stopStep_upward {ctx : Ctx} {caller : Caller} {pc : StopPc}
    (h : stopStep ctx caller pc t choice s = some e) :
    Upward (Pc.stop ctx caller pc).holds e.next.holds := by
  have hresume := ctx.resume_holds
  cases pc <;> cases caller <;> simp only [stopStep] at h <;> grind [Pc.holds, Upward]

/-- So does `bias`. -/
theorem biasStep_upward {ctx : Ctx} {pc : BiasPc} (h : biasStep ctx pc t choice s = some e) :
    Upward (Pc.bias ctx pc).holds e.next.holds := by
  have hresume := ctx.resume_holds
  cases pc <;> simp only [biasStep] at h <;> grind [Pc.holds, Upward, Mutex.rank]

/-- So does `wait_for_first_sample`. -/
theorem waitStep_upward {ctx : Ctx} {pc : WaitPc} (h : waitStep ctx pc t choice s = some e) :
    Upward (Pc.waitForFirstSample ctx pc).holds e.next.holds := by
  have hresume := ctx.resume_holds
  cases pc <;> simp only [waitStep] at h <;> grind [Pc.holds, Upward]

/-- The worker locks from scratch, or goes on with nothing. -/
theorem runStep_upward {pc : RunPc} (h : runStep pc t choice s = some e) :
    Upward (Pc.run pc).holds e.next.holds := by
  rcases runStep_cases h with ⟨k, call, rfl, hcall⟩ | ⟨impl, sessions, next, hstep, rfl⟩
  · rw [beginCall_holds hcall]
    exact upward_of_subset (List.nil_subset _)
  · cases pc with
    | send b =>
      apply upward_of_subset
      simp only [RunPc.step, RunPc.stepOpen] at hstep
      grind [Pc.holds]
    | backoffDone b =>
      cases hstep
      exact upward_of_subset (List.nil_subset _)
    | backoffWait b => cases hstep
    | _ => exact upward_nil _

/-- **Every action locks upward.** -/
theorem action_upward {p : Pc} (h : p.action t choice s = some e) : Upward p.holds e.next.holds := by
  cases p with
  | start ctx callback pc => exact startStep_upward h
  | stop ctx caller pc => exact stopStep_upward h
  | bias ctx pc => exact biasStep_upward h
  | waitForFirstSample ctx pc => exact waitStep_upward h
  | run pc => exact runStep_upward h
  | outside | deferred | query | destroy => exact upward_nil _

end

/-- What a thread holds after a notify, a wait or a join, it held before, or it held nothing. -/
theorem instr_upward (p q : Pc) (h : (∃ c, p.instr = .notify c q) ∨
    (∃ c ready timeout, p.instr = .wait c ready q timeout) ∨ ∃ w f, p.instr = .join w f q) :
    Upward p.holds q.holds := by
  rcases h with ⟨c, h⟩ | ⟨c, ready, timeout, h⟩ | ⟨w, f, h⟩
  · unfold Pc.instr at h
    split at h <;> cases h <;>
      first | exact upward_nil _ | exact upward_of_subset (by simp [Pc.holds])
  · rcases Pc.instr_wait h with ⟨_, _, rfl, rfl, -⟩ | ⟨_, _, rfl, rfl, -⟩ | ⟨_, _, rfl, rfl, -⟩ |
      ⟨_, _, rfl, rfl, -⟩ | ⟨_, rfl, rfl, -⟩ <;> exact upward_of_subset (by simp [Pc.holds])
  · rcases (Pc.instr_join h).2 with ⟨_, _, rfl, rfl⟩ | ⟨_, _, rfl, rfl⟩ <;> exact upward_nil _

/-- **The client locks its mutexes in one order.** -/
theorem lockOrder : program.LockOrder Mutex.rank where
  above := by
    intro p m m' hlocks hnot hm'
    cases hlocks with
    | takes hinstr hm =>
      obtain ⟨rfl, -⟩ := Pc.instr_act hinstr
      exact (takes_upward p).2 m hm hnot m' hm'
    | act hinstr hf hm =>
      obtain ⟨-, rfl⟩ := Pc.instr_act hinstr
      exact action_upward hf m hm hnot m' hm'
    | notify hinstr hm => exact instr_upward p _ (.inl ⟨_, hinstr⟩) m hm hnot m' hm'
    | wait hinstr hm => exact instr_upward p _ (.inr (.inl ⟨_, _, _, hinstr⟩)) m hm hnot m' hm'
    | join hinstr hm => exact instr_upward p _ (.inr (.inr ⟨_, _, hinstr⟩)) m hm hnot m' hm'
  sorted := by
    intro p takes f hinstr
    obtain ⟨rfl, -⟩ := Pc.instr_act hinstr
    exact (takes_upward p).1

/-! ## Giving the mutexes back -/

/-- How many steps `start` is away from giving its mutexes back. -/
def StartPc.budget : StartPc → ℕ
  | .returned | .threw | .waitExited => 1
  | .notifyLifecycle | .rollbackNotifyLifecycle | .faulted => 2
  | .notifyFirst | .rollbackNotifyFirst => 3
  | .rollbackPublish _ => 4
  | .rollbackReset _ => 5
  | .rollbackData _ => 6
  | .rollbackRecord _ => 7
  | .rollbackExited _ => 8
  | .rollbackStopping _ => 9
  | .create _ => 10
  | .exited _ => 11
  | .stopping _ => 12
  | .data _ => 13
  | .record _ => 14
  | .inspect => 15
  | .waitJoining => 16
  | _ => 0

/-- The same for `stop`. -/
def StopPc.budget : StopPc → ℕ
  | .waitJoining | .idleState | .joined => 1
  | .idleFaulted | .joinedState => 2
  | .self => 3
  | .command => 4
  | .notifyLifecycle => 5
  | .notifyFirst => 6
  | _ => 0

/-- The same for `bias`. -/
def BiasPc.budget : BiasPc → ℕ
  | .reset => 1
  | .restart => 2
  | .send _ => 3
  | .check => 4
  | .record => 5
  | _ => 0

/-- The moves that are left before a thread that holds a mutex holds none. -/
def Pc.budget : Pc → ℕ
  | .start _ _ pc => pc.budget
  | .stop _ _ pc => pc.budget
  | .bias _ pc => pc.budget
  | .waitForFirstSample _ (.waiting _) => 2
  | .waitForFirstSample _ (.final _) => 1
  | .run (.backoffWait _) => 2
  | .run (.backoffDone _) | .run (.send _) => 1
  | _ => 0

/-- At most sixteen steps. -/
theorem Pc.budget_le (p : Pc) : p.budget ≤ 16 := by
  cases p with
  | start ctx callback pc => cases pc <;> simp [budget, StartPc.budget]
  | stop ctx caller pc => cases pc <;> simp [budget, StopPc.budget]
  | bias ctx pc => cases pc <;> simp [budget, BiasPc.budget]
  | waitForFirstSample ctx pc => cases pc <;> simp [budget]
  | run pc => cases pc <;> simp [budget]
  | _ => simp [budget]

/-- A control point where a thread takes an action of its own. -/
def Pc.acts (p : Pc) : Bool :=
  match p.instr with
  | .act _ _ => true
  | _ => false

theorem Pc.acts_of_act {p : Pc} {takes : List Mutex} {f : Action} (h : p.instr = .act takes f) :
    p.acts = true := by
  simp only [acts, h]

instance : Inhabited Choice := ⟨.proceed⟩

section

variable (t : Tid) (s : Shared)

/-- The action goes on to less work, or to no mutex. -/
def Lessens (p : Pc) (f : Action) : Prop :=
  ∃ e, f t (.fail "") s = some e ∧ e.spawned = none ∧ (e.next.holds = [] ∨ e.next.budget < p.budget)

/-- A step of `start` under a mutex can be taken, and lessens the budget. -/
theorem startStep_lessens (ctx : Ctx) (callback : SampleCallback) {pc : StartPc}
    (hholds : (Pc.start ctx callback pc).holds ≠ [])
    (hact : (Pc.start ctx callback pc).acts = true) :
    Lessens t s (.start ctx callback pc) (startStep ctx callback pc) := by
  have hresume := ctx.resume_holds
  cases pc with
  | lock | join | reaped | reapedNotify => exact absurd rfl hholds
  | waitJoining | waitExited | notifyFirst | notifyLifecycle | rollbackNotifyFirst
  | rollbackNotifyLifecycle => cases hact
  | inspect =>
    simp only [Lessens, startStep]
    split
    · split_ifs
      · exact ⟨_, rfl, rfl, .inl rfl⟩
      · exact ⟨_, rfl, rfl, .inr (by simp [Pc.budget, StartPc.budget])⟩
    · exact ⟨_, rfl, rfl, .inr (by simp [Pc.budget, StartPc.budget])⟩
  | faulted =>
    simp only [Lessens, startStep]
    split_ifs
    · exact ⟨_, rfl, rfl, .inr (by simp [Pc.budget, StartPc.budget])⟩
    · exact ⟨_, rfl, rfl, .inl hresume⟩
  | returned | threw => exact ⟨_, rfl, rfl, .inl hresume⟩
  | _ => exact ⟨_, rfl, rfl, .inr (by simp [Pc.budget, StartPc.budget])⟩

/-- So does one of `stop`. -/
theorem stopStep_lessens (ctx : Ctx) (caller : Caller) {pc : StopPc}
    (hholds : (Pc.stop ctx caller pc).holds ≠ [])
    (hact : (Pc.stop ctx caller pc).acts = true) :
    Lessens t s (.stop ctx caller pc) (stopStep ctx caller pc) := by
  cases pc with
  | lock | join | relock | joinedNotifyLifecycle | joinedNotifyFirst | returned =>
    exact absurd rfl hholds
  | waitJoining | notifyFirst | notifyLifecycle => cases hact
  | self =>
    simp only [Lessens, stopStep]
    split_ifs
    · exact ⟨_, rfl, rfl, .inl rfl⟩
    · exact ⟨_, rfl, rfl, .inr (by simp [Pc.budget, StopPc.budget])⟩
    · split
      · exact ⟨_, rfl, rfl, .inr (by simp [Pc.budget, StopPc.budget])⟩
      · exact ⟨_, rfl, rfl, .inl rfl⟩
  | idleFaulted =>
    simp only [Lessens, stopStep]
    split_ifs
    · exact ⟨_, rfl, rfl, .inl rfl⟩
    · exact ⟨_, rfl, rfl, .inr (by simp [Pc.budget, StopPc.budget])⟩
  | command => exact ⟨_, rfl, rfl, .inr (by simp [Pc.budget, StopPc.budget])⟩
  | joinedState => exact ⟨_, rfl, rfl, .inr (by simp [Pc.budget, StopPc.budget])⟩
  | idleState | joined => exact ⟨_, rfl, rfl, .inl rfl⟩

/-- So does one of `bias`. -/
theorem biasStep_lessens (ctx : Ctx) {pc : BiasPc} (hholds : (Pc.bias ctx pc).holds ≠ []) :
    Lessens t s (.bias ctx pc) (biasStep ctx pc) := by
  cases pc with
  | command | threw | returned => exact absurd rfl hholds
  | record => exact ⟨_, rfl, rfl, .inr (by simp [Pc.budget, BiasPc.budget])⟩
  | check =>
    refine ⟨_, rfl, rfl, ?_⟩
    split_ifs
    · exact .inr (by simp [Pc.budget, BiasPc.budget])
    · exact .inl rfl
  | send | restart | reset => exact ⟨_, rfl, rfl, .inl rfl⟩

end

/-- A thread that holds a mutex and acts can always act, whatever the state is: where something is left
open, a call of the system may fail. -/
theorem action_lessens {p : Pc} (t : Tid) (s : Shared) (hholds : p.holds ≠ [])
    (hact : p.acts = true) : Lessens t s p p.action := by
  cases p with
  | start ctx callback pc => exact startStep_lessens t s ctx callback hholds hact
  | stop ctx caller pc => exact stopStep_lessens t s ctx caller hholds hact
  | bias ctx pc => exact biasStep_lessens t s ctx hholds
  | waitForFirstSample ctx pc =>
    cases pc with
    | enter | returned => exact absurd rfl hholds
    | waiting => cases hact
    | final => exact ⟨_, rfl, rfl, .inl rfl⟩
  | run pc =>
    cases pc with
    | send | backoffDone => exact ⟨_, rfl, rfl, .inl rfl⟩
    | backoffWait => cases hact
    | _ => exact absurd rfl hholds
  | _ => exact absurd rfl hholds

/-- **A thread that holds a mutex gives it back by itself.** -/
theorem releases : program.Releases Pc.budget where
  act := by
    intro p takes f t s hholds hinstr
    obtain ⟨-, rfl⟩ := Pc.instr_act hinstr
    obtain ⟨e, he, hspawned, hnext⟩ := action_lessens t s hholds (Pc.acts_of_act hinstr)
    exact ⟨_, e, he, hspawned, hnext⟩
  notify := by
    intro p c q hholds hinstr
    change p.instr = _ at hinstr
    change p.holds ≠ [] at hholds
    show q.holds = [] ∨ q.budget < p.budget
    unfold Pc.instr at hinstr
    split at hinstr <;> cases hinstr <;> simp [Pc.holds, Pc.budget, StartPc.budget, StopPc.budget] at hholds ⊢
  wait := by
    intro p c ready q timeout hholds hinstr
    show q.holds = [] ∨ q.budget < p.budget
    rcases Pc.instr_wait hinstr with ⟨_, _, rfl, rfl, -⟩ | ⟨_, _, rfl, rfl, -⟩ | ⟨_, _, rfl, rfl, -⟩ |
      ⟨_, _, rfl, rfl, -⟩ | ⟨_, rfl, rfl, -⟩ <;>
      simp [Pc.holds, Pc.budget, StartPc.budget, StopPc.budget]
  join := by
    intro p child f q hinstr
    rcases (Pc.instr_join hinstr).2 with ⟨_, _, rfl, -⟩ | ⟨_, _, rfl, -⟩ <;> rfl

/-! ## Reachable states -/

/-- No mutex of the client is part of a deadlock. -/
structure DeadlockFree (s : System) : Prop where
  /-- A thread locks only mutexes above the ones it owns. -/
  ordered : ∀ t m m', program.Locks (s.threads t).pc m → m ∉ program.held (s.threads t) →
    m' ∈ program.held (s.threads t) → m'.rank < m.rank
  /-- Its owners alone release every mutex. -/
  released : ∃ is s', Runs Step s is s' ∧ (∀ m, s'.owner m = none) ∧
    (∀ i ∈ is, ∃ m, s.owner m = some i.tid) ∧ is.length ≤ 136
  /-- Nobody joins or sleeps with a mutex, and none is held in a callback. -/
  bare : ∀ t, (s.threads t).mode = .blocked ∨ (∃ w f q, (s.threads t).pc.instr = .join w f q) ∨
    (∃ k, (s.threads t).pc = .run (.inCallback k)) → ∀ m, s.owner m ≠ some t

theorem deadlockFree {config : Config} {s : System} (h : s.Reachable config) : DeadlockFree s where
  ordered := by
    intro t m m' hlocks hnot hm'
    have hrun : program.held (s.threads t) = (s.threads t).pc.holds := by
      unfold Program.held at hm' ⊢
      split at hm' <;> first | rfl | cases hm'
    rw [hrun] at hnot hm'
    exact lockOrder.above hlocks hnot hm'
  released := by
    obtain ⟨is, s', hruns, hfree, hby, hlength⟩ := Program.drains lockOrder releases h.consistent
    have hbound := Program.work_le Pc.budget_le s
    rw [Mutex.card] at hbound
    exact ⟨is, s', hruns, hfree, hby, hlength.trans hbound⟩
  bare := by
    intro t ht m hown
    have hm := (h.consistent.owned m t).mp hown
    rcases ht with hblocked | ⟨w, f, q, hinstr⟩ | ⟨k, hpc⟩
    · simp [Program.held, hblocked] at hm
    · have hnone : program.holds (s.threads t).pc = [] := releases.join hinstr
      simp only [Program.held, hnone] at hm
      split at hm <;> cases hm
    · have hnone : program.holds (s.threads t).pc = [] := by rw [hpc]; rfl
      simp only [Program.held, hnone] at hm
      split at hm <;> cases hm

/-- Thread 1 is in `bias()`, with two mutexes, while thread 2 sleeps in its backoff and thread 3 calls
`stop()`. -/
theorem deadlockFree_bias :
    ∃ s : System, s.Reachable {} ∧ s.owner .record = some 1 ∧ s.owner .lifecycle = some 3 ∧
      (s.threads 2).mode = .blocked ∧ DeadlockFree s := by
  have hrun : ((Library.execute program.next (System.init {})
      (startRun ++ discoveryFails ++ steps 2 4 ++ [go 2 (.reading 0), go 2, ⟨2, .block⟩] ++
        [go 1 (.call .bias), go 1, go 1, go 3 (.call .stop), go 3])).map fun s =>
        decide (s.owner .record = some 1 ∧ s.owner .lifecycle = some 3 ∧
          (s.threads 2).mode = .blocked)) = some true := by
    decide +kernel
  obtain ⟨s, hruns, hs⟩ := Library.exists_runs_of_execute hrun
  obtain ⟨hrecord, hlifecycle, hblocked⟩ := of_decide_eq_true hs
  have hreach : System.Reachable {} s := ⟨_, hruns⟩
  exact ⟨s, hreach, hrecord, hlifecycle, hblocked, deadlockFree hreach⟩

end NetFT.Client
